import TaggedRows.FileTree
import TaggedRows.Proofs.Text.Split

/-!
# Names in a directory

- **Entry names** (`IsEntryName`): what an entry of a directory can be called.
- **Joined paths** (`toList_join`): a name in a directory is what follows the last slash of the
  path. So it is the last piece of the path (`piecesOf_of_slash`) and its file name
  (`fileName?_of_slash`), and says alone whether the file holds source text (`isSource_join`).
-/

namespace TaggedRows

/-- An entry of a directory can have the name. -/
structure IsEntryName (name : String) : Prop where
  ne_empty : name ≠ ""
  ne_here : name ≠ "."
  ne_up : name ≠ ".."
  noSlash : '/' ∉ name.toList

instance (name : String) : Decidable (IsEntryName name) :=
  decidable_of_iff (name ≠ "" ∧ name ≠ "." ∧ name ≠ ".." ∧ '/' ∉ name.toList)
    ⟨fun ⟨h, h', h'', hs⟩ => ⟨h, h', h'', hs⟩,
      fun h => ⟨h.ne_empty, h.ne_here, h.ne_up, h.noSlash⟩⟩

/-- A file with the name holds source text. -/
def isSourceName (name : String) : Bool :=
  (FilePath.splitExtension name).2 = some "rs"

namespace FilePath

theorem endsWith_iff {dir : String} : dir.endsWith "/" = true ↔ ∃ cs, dir.toList = cs ++ ['/'] := by
  rw [← String.endsWith_toSlice, String.Slice.endsWith_string_iff, String.copy_toSlice]
  exact ⟨fun ⟨cs, h⟩ => ⟨cs, h.symm⟩, fun ⟨cs, h⟩ => ⟨cs, h.symm⟩⟩

theorem startsWith_iff {path : String} :
    path.startsWith "/" = true ↔ ∃ cs, path.toList = '/' :: cs := by
  rw [String.startsWith_string_iff]
  exact ⟨fun ⟨cs, h⟩ => ⟨cs, h.symm⟩, fun ⟨cs, h⟩ => ⟨cs, h.symm⟩⟩

/-- A name is put behind the last slash of a directory, or behind a new one. -/
theorem toList_join {dir name : String} (hdir : dir ≠ "") (hname : IsEntryName name) :
    ∃ front, (join dir name).toList = front ++ '/' :: name.toList ∧
      (dir.toList = front ∨ dir.toList = front ++ ['/']) := by
  have hs : name.startsWith "/" = false := by
    rw [Bool.eq_false_iff, ne_eq, startsWith_iff]
    rintro ⟨cs, h⟩
    exact hname.noSlash (by simp [h])
  have he : dir.isEmpty = false := by simpa using hdir
  rw [join, hs, he]
  by_cases hend : dir.endsWith "/" = true
  · obtain ⟨front, h⟩ := endsWith_iff.mp hend
    exact ⟨front, by simp [hend, h], .inr h⟩
  · exact ⟨dir.toList, by simp [hend], .inl rfl⟩

/-! ## The last component -/

theorem toList_ne {name : String} (text : String) (h : name ≠ text) :
    name.toList ≠ text.toList := fun he => h (String.toList_injective he)

/-- A name in the last place is a component. -/
theorem getLast?_placeComponents {name : String} (hname : IsEntryName name) (first : Bool)
    (start : Nat) (front : List (List Char)) :
    ∃ stop, (placeComponents first start (front ++ [name.toList])).getLast? =
      some ⟨.name name, stop⟩ := by
  induction front generalizing first start with
  | nil =>
    have he := toList_ne "" hname.ne_empty
    have hh := toList_ne "." hname.ne_here
    have hu := toList_ne ".." hname.ne_up
    simp only [String.toList_empty] at he
    exact ⟨start + name.toList.length, by
      simp [placeComponents, he, show name.toList ≠ ['.'] from hh,
        show name.toList ≠ ['.', '.'] from hu]⟩
  | cons piece front ih =>
    obtain ⟨stop, hstop⟩ := ih false (start + piece.length + 1)
    refine ⟨stop, ?_⟩
    rw [List.cons_append, placeComponents]
    split
    · exact hstop
    split
    · split
      · rw [List.getLast?_cons, hstop]; rfl
      · exact hstop
    split
    · rw [List.getLast?_cons, hstop]; rfl
    · rw [List.getLast?_cons, hstop]; rfl

/-- The name behind the last slash is the file name. -/
theorem fileName?_of_slash {path name : String} {front : List Char} (hname : IsEntryName name)
    (h : path.toList = front ++ '/' :: name.toList) : fileName? path = some name := by
  have hpieces : Text.pieces '/' name.toList = [name.toList] :=
    Text.pieces_of_notMem hname.noSlash
  have hlast : ∃ stop, (components path).getLast? = some ⟨.name name, stop⟩ := by
    unfold components
    split
    · next cs hcs =>
      rw [h] at hcs
      have hrest : ∃ front', Text.pieces '/' cs = front' ++ [name.toList] := by
        cases front with
        | nil => exact ⟨[], by simp [← (List.cons.inj hcs).2, hpieces]⟩
        | cons c front =>
          have htail : front ++ '/' :: name.toList = cs := (List.cons.inj hcs).2
          exact ⟨Text.pieces '/' front, by rw [← htail, Text.pieces_append, hpieces]⟩
      obtain ⟨front', hf⟩ := hrest
      obtain ⟨stop, hs⟩ := getLast?_placeComponents hname false 1 front'
      exact ⟨stop, by rw [hf, List.getLast?_cons, hs]; rfl⟩
    · rw [h, Text.pieces_append, hpieces]
      exact getLast?_placeComponents hname true 0 _
  obtain ⟨stop, hs⟩ := hlast
  rw [fileName?, hs]

/-- Whether a file in a directory holds source text depends on its name. -/
theorem isSource_join {dir name : String} (hdir : dir ≠ "") (hname : IsEntryName name) :
    isSource (join dir name) = isSourceName name := by
  obtain ⟨front, h, -⟩ := toList_join hdir hname
  rw [isSource, extension?, fileName?_of_slash hname h, isSourceName, Option.bind_some]

end FilePath

namespace FileTree

theorem piecesOf_of_slash {path name : String} {front : List Char} (hname : IsEntryName name)
    (h : path.toList = front ++ '/' :: name.toList) :
    piecesOf path = (Text.pieces '/' front).map String.ofList ++ [name] := by
  rw [piecesOf, Text.piecesOf, h, Text.pieces_append, Text.pieces_of_notMem hname.noSlash]
  simp

end FileTree

end TaggedRows
