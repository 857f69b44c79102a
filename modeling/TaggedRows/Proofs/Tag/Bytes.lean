import TaggedRows.Proofs.Tag.Grammar
import TaggedRows.Tag.Bytes

/-!
# The scan of bytes and the scan of characters

- **Bytes of characters** (`lt_or_forall_mem_utf8EncodeChar`): a character has a single byte, which
  is its code, or only bytes that no such character has. So quotes and backslashes are found in the
  bytes, and nothing else is taken for one (`isPlainByte_of_mem`).
- **Access** (`byteAt_append`, `cutAt_append`): what an index at a boundary in the text finds.
- **Scan** (`scanQuoted_append`): from a boundary on, the bytes are scanned like the characters. A
  backslash may leave the scan inside a character, but then it goes on to the next boundary
  (`scanQuoted_through`).
-/

namespace TaggedRows.Tag

/-! ## Bytes of characters -/

/-- The byte neither skips nor ends anything. -/
def IsPlainByte (b : UInt8) : Prop := b ≠ backslashByte ∧ b ≠ quoteByte

theorem isPlainByte_of_le {b : UInt8} (h : 128 ≤ b.toNat) : IsPlainByte b := by
  constructor <;> rintro rfl <;> exact absurd h (by decide)

theorem lt_or_forall_mem_utf8EncodeChar (c : Char) :
    (c.toNat < 128 ∧ String.utf8EncodeChar c = [UInt8.ofNat c.toNat]) ∨
      ∀ b ∈ String.utf8EncodeChar c, 128 ≤ b.toNat := by
  -- Each byte of a character behind the first 128 has a mark added.
  have hmark : ∀ {n m : Nat}, 128 ≤ m → 128 ≤ n ||| m :=
    fun hm => Nat.le_trans hm Nat.right_le_or
  obtain hsize | hsize | hsize | hsize := c.utf8Size_eq
  · refine .inl ⟨?_, String.utf8EncodeChar_eq_singleton hsize⟩
    have hle : c.val.toNat ≤ 127 := UInt32.le_iff_toNat_le.mp (Char.utf8Size_eq_one_iff.mp hsize)
    exact Nat.lt_succ_of_le hle
  · rw [String.utf8EncodeChar_eq_cons_cons hsize]
    simp [hmark]
  · rw [String.utf8EncodeChar_eq_cons_cons_cons hsize]
    simp [hmark]
  · rw [String.utf8EncodeChar_eq_cons_cons_cons_cons hsize]
    simp [hmark]

/-- Only a quote and a backslash have their bytes. -/
theorem isPlainByte_of_mem {c : Char} (hq : c ≠ '"') (hb : c ≠ '\\') {b : UInt8}
    (h : b ∈ String.utf8EncodeChar c) : IsPlainByte b := by
  obtain ⟨hlt, hone⟩ | hmany := lt_or_forall_mem_utf8EncodeChar c
  · rw [hone, List.mem_singleton] at h
    subst h
    have hcode : ∀ d : Char, d.toNat < 128 → UInt8.ofNat c.toNat = UInt8.ofNat d.toNat → c = d := by
      intro d hd h
      apply Char.toNat_inj.mp
      have hcodes := congrArg UInt8.toNat h
      rwa [UInt8.toNat_ofNat_of_lt' (by show c.toNat < 256; omega),
        UInt8.toNat_ofNat_of_lt' (by show d.toNat < 256; omega)] at hcodes
    exact ⟨fun h => hb (hcode _ (by decide) h), fun h => hq (hcode _ (by decide) h)⟩
  · exact isPlainByte_of_le (hmany b h)

/-- Behind the first byte of a character there is no quote and no backslash. -/
theorem isPlainByte_of_mem_tail {c : Char} {b : UInt8}
    (h : b ∈ (String.utf8EncodeChar c).drop 1) : IsPlainByte b := by
  obtain ⟨-, hone⟩ | hmany := lt_or_forall_mem_utf8EncodeChar c
  · simp [hone] at h
  · exact isPlainByte_of_le (hmany b (List.mem_of_mem_drop h))

/-! ## Access -/

variable {before behind : String} {c : Char} {k : Nat}

theorem byteAt_append (hk : k < (String.utf8EncodeChar c).length) :
    byteAt (before ++ (String.singleton c ++ behind)) (before.utf8ByteSize + k) =
      .ok (String.utf8EncodeChar c)[k] := by
  have hk' : k < c.utf8Size := by simpa using hk
  have hlt : before.utf8ByteSize + k <
      (before ++ (String.singleton c ++ behind)).utf8ByteSize := by
    simp only [String.utf8ByteSize_append, String.utf8ByteSize_singleton]
    omega
  rw [byteAt, dif_pos hlt]
  simp only [String.getUTF8Byte, String.toByteArray_append, String.toByteArray_singleton,
    List.utf8Encode_singleton]
  rw [ByteArray.getElem_append_right (by simp), ByteArray.getElem_append_left (by simpa using hk')]
  simp

theorem cutAt_append (before behind : String) :
    cutAt (before ++ behind) before.utf8ByteSize = .ok (before, behind) := by
  have hvalid : (⟨before.utf8ByteSize⟩ : String.Pos.Raw).IsValid (before ++ behind) :=
    String.Pos.Raw.isValid_iff_exists_append.mpr ⟨before, behind, rfl, rfl⟩
  have hsplits : ((before ++ behind).pos _ hvalid).Splits before behind := ⟨rfl, rfl⟩
  obtain ⟨hbefore, hbehind⟩ := ((before ++ behind).pos _ hvalid).splits.eq hsplits
  simp only [cutAt, dif_pos hvalid, hbefore, hbehind]

/-! ## Scan -/

theorem scanQuoted_of_lt {text : String} {i : Nat} {b : UInt8} (h : byteAt text i = .ok b) :
    scanQuoted text i =
      if b = backslashByte then scanQuoted text (i + 2)
      else if b = quoteByte then do
        let (body, _) ← cutAt text i
        let (_, rest) ← cutAt text (i + 1)
        return some (body, rest)
      else scanQuoted text (i + 1) := by
  have hlt : i < text.utf8ByteSize := by
    unfold byteAt at h
    split at h
    · assumption
    · cases h
  rw [scanQuoted, if_pos hlt, h]
  rfl

/-- The rest of a character is passed byte by byte. -/
theorem scanQuoted_through (hk : k ≤ c.utf8Size)
    (hplain : ∀ b ∈ (String.utf8EncodeChar c).drop k, IsPlainByte b) :
    scanQuoted (before ++ (String.singleton c ++ behind)) (before.utf8ByteSize + k) =
      scanQuoted (before ++ String.singleton c ++ behind)
        (before ++ String.singleton c).utf8ByteSize := by
  obtain ⟨n, hn⟩ := Nat.exists_eq_add_of_le hk
  induction n generalizing k with
  | zero =>
    rw [String.append_assoc, String.utf8ByteSize_append, String.utf8ByteSize_singleton, hn]
    rfl
  | succ n ih =>
    have hlt : k < (String.utf8EncodeChar c).length := by
      rw [String.length_utf8EncodeChar]
      omega
    rw [List.drop_eq_getElem_cons hlt] at hplain
    obtain ⟨⟨hb, hq⟩, hrest⟩ := List.forall_mem_cons.mp hplain
    rw [scanQuoted_of_lt (byteAt_append hlt), if_neg hb, if_neg hq, Nat.add_assoc]
    exact ih (by omega) hrest (by omega)

theorem scanQuoted_quote (before behind : String) :
    scanQuoted (before ++ (String.singleton '"' ++ behind)) before.utf8ByteSize =
      .ok (some (before, behind)) := by
  have hbyte : byteAt (before ++ (String.singleton '"' ++ behind)) before.utf8ByteSize =
      .ok quoteByte := byteAt_append (c := '"') (k := 0) (by decide)
  have hrest : cutAt (before ++ (String.singleton '"' ++ behind)) (before.utf8ByteSize + 1) =
      .ok (before ++ String.singleton '"', behind) := by
    have hcut := cutAt_append (before ++ String.singleton '"') behind
    rwa [String.utf8ByteSize_append, String.append_assoc] at hcut
  rw [scanQuoted_of_lt hbyte, if_neg (by decide), if_pos rfl, cutAt_append, hrest]
  rfl

theorem scanQuoted_backslash (before behind : String) :
    scanQuoted (before ++ (String.singleton '\\' ++ behind)) before.utf8ByteSize =
      scanQuoted (before ++ String.singleton '\\' ++ behind)
        ((before ++ String.singleton '\\').utf8ByteSize + 1) := by
  have hbyte : byteAt (before ++ (String.singleton '\\' ++ behind)) before.utf8ByteSize =
      .ok backslashByte := byteAt_append (c := '\\') (k := 0) (by decide)
  rw [scanQuoted_of_lt hbyte, if_pos rfl, String.append_assoc, String.utf8ByteSize_append,
    Nat.add_assoc]
  rfl

/-- From a boundary on, the bytes are scanned like the characters. -/
theorem scanQuoted_append (before : String) (cs : List Char) :
    scanQuoted (before ++ .ofList cs) before.utf8ByteSize =
      .ok ((splitQuoted cs).map fun (body, rest) => (before ++ .ofList body, .ofList rest)) := by
  fun_induction splitQuoted cs generalizing before with
  | case1 =>
    rw [scanQuoted, if_neg (by simp)]
    rfl
  | case2 cs =>
    rw [String.ofList_cons, scanQuoted_quote]
    simp
  | case3 =>
    rw [String.ofList_cons, scanQuoted_backslash, scanQuoted, if_neg (by simp)]
    rfl
  | case4 d cs _ ih =>
    rw [String.ofList_cons, String.ofList_cons, scanQuoted_backslash,
      scanQuoted_through d.utf8Size_pos fun b => isPlainByte_of_mem_tail, ih]
    simp only [Option.map_map, Function.comp_def, String.ofList_cons, String.append_assoc]
  | case5 c cs hq hb ih =>
    rw [String.ofList_cons, ← before.utf8ByteSize.add_zero,
      scanQuoted_through (Nat.zero_le _) fun b => isPlainByte_of_mem hq hb, ih]
    simp only [Option.map_map, Function.comp_def, String.ofList_cons, String.append_assoc]

theorem splitBytes_eq (text : String) :
    splitBytes text =
      .ok ((splitQuoted text.toList).map fun (body, rest) => (.ofList body, .ofList rest)) := by
  simpa [splitBytes] using scanQuoted_append "" text.toList

/-- The skipped byte is the first of two. -/
example : splitBytes "\\\u00e9\"x" = .ok (some ("\\\u00e9", "x")) := by
  rw [splitBytes_eq]
  rfl

/-- Whatever the text, the scan of its bytes has no fault and splits it like the scan of its
characters: at the quote that ends a body. -/
theorem splitBytes_agrees_with_splitQuoted (text : String) :
    splitBytes text =
      .ok ((splitQuoted text.toList).map fun (body, rest) => (.ofList body, .ofList rest)) ∧
    (splitBytes text = .ok none ↔ splitQuoted text.toList = none) ∧
    ∀ body rest, splitBytes text = .ok (some (body, rest)) ↔
      IsBody body.toList ∧ body ++ "\"" ++ rest = text := by
  refine ⟨splitBytes_eq text, by simp [splitBytes_eq], fun body rest => ?_⟩
  have hsplit : splitBytes text = .ok (some (body, rest)) ↔
      splitQuoted text.toList = some (body.toList, rest.toList) := by
    rw [splitBytes_eq, Except.ok.injEq]
    constructor
    · intro h
      obtain ⟨⟨cs, ds⟩, hsplit, heq⟩ := Option.map_eq_some_iff.mp h
      cases heq
      simpa using hsplit
    · intro h
      simp [h]
  have htext : body ++ "\"" ++ rest = text ↔ text.toList = body.toList ++ '"' :: rest.toList := by
    rw [← String.toList_inj, eq_comm]
    simp
  rw [hsplit, splitQuoted_eq_some, htext]

end TaggedRows.Tag
