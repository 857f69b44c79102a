import TaggedRows.Configuration.Basic
import TaggedRows.Proofs.GeneratedUnit.Banner
import TaggedRows.Proofs.SourceSet.Directory

/-!
# Runs on one directory

- **One run** (`Call.after_eq`): a run writes its unit to one file, or leaves the tree as it is.
  Where the tree was regenerated, the run does what it would have done before
  (`Call.report_eq`, `Call.write?_eq`), and the tree stays regenerated (`Call.regenerated`).
- **Many runs** (`regenerated_treeAfter`, `treeAfter_eq`): so they are independent of each other
  (`runs_independent`), unless one of them writes over a source of the directory
  (`runs_dependent`).
-/

namespace TaggedRows

namespace Configuration

/-! ## One run -/

/-- A run that is asked for. -/
structure Call where
  config : Configuration
  invocation : String

namespace Call

variable (call : Call) (tree : FileTree)

/-- The unit that a run yields, or why it yields none, with the warnings on the way. -/
def report : Report GeneratedUnit := call.config.generate tree call.invocation

/-- What a completed run has produced. -/
def outcome? : Option Outcome := (call.config.run tree call.invocation).result.toOption

/-- The tree after a run. A run that fails leaves it as it is. -/
def after : FileTree := (call.outcome? tree).elim tree Outcome.tree

/-- The file that the unit of a run goes to, if it can be written. -/
def target? : Option Location := (tree.destination (call.config.outputPath tree)).toOption

/-- What a run writes and where, if it does. -/
def write? : Option (Location × String) :=
  (call.report tree).result.toOption.bind fun unit =>
    (call.target? tree).map fun loc => (loc, unit.source)

end Call

/-- Puts a text in a file. -/
def putText (tree : FileTree) (written : Location × String) : FileTree :=
  tree.put written.1 (.file (.text written.2))

/-- What a run gives to its caller: the path of the unit as it is configured, and the unit. -/
def Outcome.yielded (outcome : Outcome) : String × GeneratedUnit := (outcome.output, outcome.unit)

namespace Call

variable {call : Call} {tree tree' : FileTree} {path : String} {dir loc : Location}

/-- A run completes if it yields a unit that can be written. -/
theorem outcome?_eq (call : Call) (tree : FileTree) : call.outcome? tree =
    (call.report tree).result.toOption.bind fun unit => (call.target? tree).map fun loc =>
      ⟨call.config.outputPath tree, unit, putText tree (loc, unit.source)⟩ := by
  rw [outcome?, run, Report.result_bind, report]
  cases (call.config.generate tree call.invocation).result with
  | error e => rfl
  | ok unit =>
    simp only [Except.bind, Report.ofExcept, write, FileTree.writeText, target?]
    cases tree.destination (call.config.outputPath tree) <;> rfl

/-- A run writes one file, or none. -/
theorem after_eq (call : Call) (tree : FileTree) :
    call.after tree = (call.write? tree).elim tree (putText tree) := by
  rw [after, outcome?_eq, write?]
  cases (call.report tree).result.toOption with
  | none => rfl
  | some unit => cases call.target? tree <;> rfl

/-- Every unit that a run yields can be told from sources. -/
theorem isMarked_of_report {unit : GeneratedUnit} (h : (call.report tree).result = .ok unit) :
    GeneratedUnit.IsMarked unit.source := by
  rw [report, generate, Report.result_bind] at h
  obtain ⟨set, -, hunit⟩ := bind_eq_ok.mp h
  exact GeneratedUnit.isMarked_of_generate hunit

theorem write?_eq_some {written : Location × String} : call.write? tree = some written ↔
    ∃ unit, (call.report tree).result = .ok unit ∧ call.target? tree = some written.1 ∧
      unit.source = written.2 := by
  simp [write?, Option.bind_eq_some_iff, toOption_eq_some, Option.map_eq_some_iff, Prod.ext_iff]

/-- The run reads the directory, and does not write over a source in it. -/
structure Spares (call : Call) (tree : FileTree) (path : String) (dir : Location) : Prop where
  inputs : call.config.inputs = [path]
  spares : ∀ name content,
    tree.find (call.config.outputPath tree) = .ok (dir ++ [name], .file content) →
      isSourceName name = true → content.isGenerated = true

theorem singleDirectory?_eq (hin : call.config.inputs = [path])
    (hd : tree.find path = .ok (dir, .directory)) :
    call.config.singleDirectory? tree = some path := by
  simp [singleDirectory?, inputList, hin, FileTree.isDirectory, hd]

section Regenerated

open SourceSet

variable (h : Regenerated dir tree tree') (hwf : tree.WellFormed)
  (hd : tree.find path = .ok (dir, .directory))
include h hd

theorem outputPath_eq (hin : call.config.inputs = [path]) :
    call.config.outputPath tree' = call.config.outputPath tree := by
  simp only [outputPath, sourceDirectory, singleDirectory?_eq hin hd,
    singleDirectory?_eq hin (h.grows.find_directory_iff.mpr hd)]

include hwf

/-- A run on the regenerated tree reports the same. -/
theorem report_eq (hin : call.config.inputs = [path]) : call.report tree' = call.report tree := by
  have hd' := h.grows.find_directory_iff.mpr hd
  have hsources : call.config.sources tree' = call.config.sources tree := by
    simp only [sources, singleDirectory?_eq hin hd, singleDirectory?_eq hin hd',
      outputPath_eq h hd hin]
    exact h.ofDirectory_eq hwf hd _
  rw [report, report, generate, generate, hsources]

theorem target?_eq (hin : call.config.inputs = [path]) :
    call.target? tree' = call.target? tree := by
  rw [target?, target?, outputPath_eq h hd hin]
  ext loc
  rw [toOption_eq_some, toOption_eq_some, h.destination_iff hwf]

theorem write?_eq (hin : call.config.inputs = [path]) : call.write? tree' = call.write? tree := by
  rw [write?, write?, report_eq h hwf hd hin, target?_eq h hwf hd hin]

/-- A run keeps the tree regenerated. -/
theorem regenerated (hcall : call.Spares tree path dir) :
    Regenerated dir tree (call.after tree') := by
  rw [after_eq, write?_eq h hwf hd hcall.inputs]
  cases hw : call.write? tree with
  | none => exact h
  | some written =>
    obtain ⟨unit, hunit, htarget, hsource⟩ := write?_eq_some.mp hw
    have hdest := toOption_eq_some.mp htarget
    refine h.put hwf hdest (hsource ▸ (isMarked_of_report hunit).isGenerated) ?_
    rintro name content hloc ⟨hfile, hname, hgen⟩
    have hfind := hwf.find_of_destination hdest (hloc ▸ hfile)
    rw [hcall.spares name content (hloc ▸ hfind) hname] at hgen
    cases hgen

end Regenerated

end Call

/-! ## Many runs -/

/-- The tree after runs, one after the other. -/
def treeAfter (tree : FileTree) (calls : List Call) : FileTree :=
  calls.foldl (fun tree call => call.after tree) tree

/-- The same entries are at all locations. -/
structure SameContents (tree tree' : FileTree) : Prop where
  current : tree'.current = tree.current
  entry : ∀ loc, tree'.lookup? loc = tree.lookup? loc

namespace SameContents

theorem refl (tree : FileTree) : SameContents tree tree := ⟨rfl, fun _ => rfl⟩

theorem trans {tree tree' tree'' : FileTree} (h : SameContents tree tree')
    (h' : SameContents tree' tree'') : SameContents tree tree'' :=
  ⟨h'.current.trans h.current, fun loc => (h'.entry loc).trans (h.entry loc)⟩

theorem putText {tree tree' : FileTree} (h : SameContents tree tree')
    (written : Location × String) :
    SameContents (Configuration.putText tree written) (Configuration.putText tree' written) :=
  ⟨h.current, fun loc => by
    rw [Configuration.putText, Configuration.putText, FileTree.lookup?_put, FileTree.lookup?_put,
      h.entry loc]⟩

theorem putTexts {tree tree' : FileTree} (h : SameContents tree tree')
    (texts : List (Location × String)) :
    SameContents (texts.foldl Configuration.putText tree)
      (texts.foldl Configuration.putText tree') := by
  induction texts generalizing tree tree' with
  | nil => exact h
  | cons written texts ih => exact ih (h.putText written)

end SameContents

/-- The order of texts in different files does not matter. -/
theorem sameContents_of_perm {texts texts' : List (Location × String)} (hperm : texts.Perm texts')
    (hapart : texts.Pairwise (·.1 ≠ ·.1)) (tree : FileTree) :
    SameContents (texts.foldl putText tree) (texts'.foldl putText tree) := by
  induction hperm generalizing tree with
  | nil => exact .refl tree
  | cons written _ ih => exact ih hapart.of_cons _
  | swap w w' texts =>
    have hne : w'.1 ≠ w.1 := (List.pairwise_cons.mp hapart).1 w List.mem_cons_self
    suffices hswap : SameContents (putText (putText tree w') w) (putText (putText tree w) w') from
      hswap.putTexts texts
    refine ⟨rfl, fun loc => ?_⟩
    simp only [putText, FileTree.lookup?_put]
    by_cases hw : loc = w.1 ∧ w.1 ≠ []
    · rw [if_pos hw, if_neg (fun h => hne (h.1.symm.trans hw.1)), if_pos hw]
    · rw [if_neg hw, if_neg hw]
  | trans hperm _ ih ih' =>
    exact (ih hapart tree).trans
      (ih' ((hperm.pairwise_iff (fun h => Ne.symm h)).mp hapart) tree)

theorem lookup?_putTexts_of_ne {texts : List (Location × String)} {loc : Location}
    (h : ∀ written ∈ texts, written.1 ≠ loc) (tree : FileTree) :
    (texts.foldl putText tree).lookup? loc = tree.lookup? loc := by
  induction texts generalizing tree with
  | nil => rfl
  | cons written texts ih =>
    rw [List.forall_mem_cons] at h
    rw [List.foldl_cons, ih h.2, putText, FileTree.lookup?_put, if_neg (fun he => h.1 he.1.symm)]

/-- A text may be put in its file again. -/
theorem sameContents_of_repeat {written : Location × String} {texts : List (Location × String)}
    (h : ∀ other ∈ texts, other.1 ≠ written.1) (tree : FileTree) :
    SameContents ((written :: texts).foldl putText tree)
      (putText ((written :: texts).foldl putText tree) written) := by
  refine ⟨rfl, fun loc => ?_⟩
  rw [putText, FileTree.lookup?_put]
  split
  · next he =>
    rw [he.1, List.foldl_cons, lookup?_putTexts_of_ne h, putText, FileTree.lookup?_put,
      if_pos ⟨rfl, he.2⟩]
  · rfl

/-- The runs write to different files. -/
def Call.Apart (tree : FileTree) (call other : Call) : Prop :=
  ∀ loc, call.target? tree = some loc → other.target? tree ≠ some loc

theorem Call.Apart.ne {tree : FileTree} {call other : Call} {written written' : Location × String}
    (h : Apart tree call other) (hw : call.write? tree = some written)
    (hw' : other.write? tree = some written') : written'.1 ≠ written.1 := by
  obtain ⟨_, -, htarget, -⟩ := write?_eq_some.mp hw
  obtain ⟨_, -, htarget', -⟩ := write?_eq_some.mp hw'
  intro heq
  exact h _ htarget (heq ▸ htarget')

/-- Runs do not feed on each other's output. -/
structure Independent (tree : FileTree) (calls : List Call) : Prop where
  /-- Each run yields the same unit as on the tree alone, or fails in the same way. -/
  report : ∀ {before call after}, calls = before ++ call :: after →
    call.report (treeAfter tree before) = call.report tree
  /-- And it writes its unit as there, or not at all. -/
  outcome : ∀ {before call after}, calls = before ++ call :: after →
    (call.outcome? (treeAfter tree before)).map Outcome.yielded =
      (call.outcome? tree).map Outcome.yielded
  /-- The order of runs that write to different files does not matter. -/
  commute : ∀ {calls'}, calls.Perm calls' → calls.Pairwise (Call.Apart tree) →
    SameContents (treeAfter tree calls) (treeAfter tree calls')
  /-- A run that is repeated changes nothing, if no later run has written to its file. -/
  repeats : ∀ {before call after}, calls = before ++ call :: after →
    (∀ other ∈ after, call.Apart tree other) →
      SameContents (treeAfter tree calls) (treeAfter tree (calls ++ [call]))
  /-- Every unit can be told from sources by its first line. -/
  marked : ∀ {call}, call ∈ calls → ∀ {tree' unit}, (call.report tree').result = .ok unit →
    GeneratedUnit.IsMarked unit.source

variable {tree tree' : FileTree} {path : String} {dir : Location} {calls : List Call}

/-- Runs keep the tree regenerated. -/
theorem regenerated_treeAfter (hwf : tree.WellFormed) (hd : tree.find path = .ok (dir, .directory))
    (hcalls : ∀ call ∈ calls, call.Spares tree path dir)
    (h : SourceSet.Regenerated dir tree tree') :
    SourceSet.Regenerated dir tree (treeAfter tree' calls) := by
  induction calls generalizing tree' with
  | nil => exact h
  | cons call calls ih =>
    rw [List.forall_mem_cons] at hcalls
    exact ih hcalls.2 (Call.regenerated h hwf hd hcalls.1)

/-- Runs write what each of them would write alone. -/
theorem treeAfter_eq (hwf : tree.WellFormed) (hd : tree.find path = .ok (dir, .directory))
    (hcalls : ∀ call ∈ calls, call.Spares tree path dir)
    (h : SourceSet.Regenerated dir tree tree') :
    treeAfter tree' calls = (calls.filterMap fun call => call.write? tree).foldl putText tree' := by
  induction calls generalizing tree' with
  | nil => rfl
  | cons call calls ih =>
    rw [List.forall_mem_cons] at hcalls
    have hstep := ih hcalls.2 (Call.regenerated h hwf hd hcalls.1)
    change treeAfter (call.after tree') calls = _
    rw [hstep, Call.after_eq, Call.write?_eq h hwf hd hcalls.1.inputs]
    cases hw : call.write? tree with
    | none => simp [hw]
    | some written => simp [hw]

section

variable (hwf : tree.WellFormed) (hd : tree.find path = .ok (dir, .directory))
include hwf hd

/-- Runs to different files leave the same contents in any order. -/
theorem sameContents_of_apart (hcalls : ∀ call ∈ calls, call.Spares tree path dir)
    {calls' : List Call} (hperm : calls.Perm calls') (hapart : calls.Pairwise (Call.Apart tree)) :
    SameContents (treeAfter tree calls) (treeAfter tree calls') := by
  have hrefl := SourceSet.Regenerated.refl hwf dir
  rw [treeAfter_eq hwf hd hcalls hrefl,
    treeAfter_eq hwf hd (fun call hc => hcalls call (hperm.mem_iff.mpr hc)) hrefl]
  refine sameContents_of_perm (hperm.filterMap _) ?_ tree
  rw [List.pairwise_filterMap]
  exact hapart.imp fun h written hw written' hw' => (h.ne hw hw').symm

/-- A run puts the same text in its file as before, and no later run has changed that. -/
theorem sameContents_of_again {before after : List Call} {call : Call}
    (hcalls : ∀ c ∈ before ++ call :: after, c.Spares tree path dir)
    (hapart : ∀ other ∈ after, call.Apart tree other) :
    SameContents (treeAfter tree (before ++ call :: after))
      (treeAfter tree ((before ++ call :: after) ++ [call])) := by
  have hrefl := SourceSet.Regenerated.refl hwf dir
  have hagain : ∀ c ∈ (before ++ call :: after) ++ [call], c.Spares tree path dir := by
    rw [List.forall_mem_append]
    exact ⟨hcalls, by simpa using hcalls call (by simp)⟩
  rw [treeAfter_eq hwf hd hcalls hrefl, treeAfter_eq hwf hd hagain hrefl]
  cases hw : call.write? tree with
  | none => simpa [hw] using SameContents.refl _
  | some written =>
    simp only [List.filterMap_append, List.filterMap_cons, hw, List.filterMap_nil,
      List.foldl_append]
    refine sameContents_of_repeat ?_ _
    intro other ho
    obtain ⟨c, hc, hother⟩ := List.mem_filterMap.mp ho
    exact (hapart c hc).ne hw hother

end

/-- Runs on a directory are independent of each other if none writes over a source in it. -/
theorem runs_independent (hwf : tree.WellFormed) (hd : tree.find path = .ok (dir, .directory))
    (hcalls : ∀ call ∈ calls, call.Spares tree path dir) : Independent tree calls := by
  have hbefore : ∀ {before call after}, calls = before ++ call :: after →
      SourceSet.Regenerated dir tree (treeAfter tree before) ∧ call.config.inputs = [path] := by
    rintro before call after rfl
    exact ⟨regenerated_treeAfter hwf hd (fun other ho => hcalls other (by simp [ho]))
      (SourceSet.Regenerated.refl hwf dir), (hcalls call (by simp)).inputs⟩
  constructor
  case report =>
    intro before call after he
    obtain ⟨h, hin⟩ := hbefore he
    exact Call.report_eq h hwf hd hin
  case outcome =>
    intro before call after he
    obtain ⟨h, hin⟩ := hbefore he
    rw [Call.outcome?_eq, Call.outcome?_eq, Call.report_eq h hwf hd hin,
      Call.target?_eq h hwf hd hin, Call.outputPath_eq h hd hin]
    simp only [Option.map_bind, Option.map_map, Function.comp_def, Outcome.yielded]
  case commute => exact sameContents_of_apart hwf hd hcalls
  case repeats =>
    rintro before call after rfl hapart
    exact sameContents_of_again hwf hd hcalls hapart
  case marked => exact fun _ => Call.isMarked_of_report

/-- A run to a file of its own and a run to the default file. -/
def pairOfCalls : List Call :=
  [⟨⟨["."], ["User", "Role"], some "users.rs", RuntimePath.defaultText⟩, "dbgen\nUser"⟩,
    ⟨⟨["."], [], some "./db_generated.rs", RuntimePath.defaultText⟩, ""⟩]

theorem runs_independent_regenerated : SourceSet.regenerated.WellFormed ∧
    SourceSet.regenerated.find "." = .ok (["work"], .directory) ∧
    (∀ call ∈ pairOfCalls, call.Spares SourceSet.regenerated "." ["work"]) ∧
    Independent SourceSet.regenerated pairOfCalls := by
  have hwf : SourceSet.regenerated.WellFormed := ⟨by decide +kernel, by decide +kernel⟩
  have hd : SourceSet.regenerated.find "." = .ok (["work"], .directory) := by decide +kernel
  have hcalls : ∀ call ∈ pairOfCalls, call.Spares SourceSet.regenerated "." ["work"] := by
    have hown : SourceSet.regenerated.find "users.rs" = .error .notFound := by decide +kernel
    have hdefault : SourceSet.regenerated.find "./db_generated.rs" =
        .ok (["work", "db_generated.rs"], .file (.text generatedMark)) := by decide +kernel
    simp only [pairOfCalls, List.forall_mem_cons, List.not_mem_nil, false_imp_iff, implies_true,
      and_true]
    refine ⟨⟨rfl, fun name content hf => ?_⟩, ⟨rfl, fun name content hf _ => ?_⟩⟩
    · cases hown.symm.trans hf
    · cases hdefault.symm.trans hf
      decide +kernel
  exact ⟨hwf, hd, hcalls, runs_independent hwf hd hcalls⟩

/-! ## A source that is no text -/

/-- The bytes of the content begin with those of the mark of generated files. -/
def startsWithMark : FileContent → Bool
  | .text t => generatedMark.toUTF8.data.toList.isPrefixOf t.toUTF8.data.toList
  | .binary bytes => generatedMark.toUTF8.data.toList.isPrefixOf bytes

/-- A directory with an empty source and one that begins with the mark, but is no text. -/
def corrupted : FileTree :=
  ⟨[(["work"], .directory), (["work", "a.rs"], .file (.text "")),
    (["work", "g.rs"], .file (.binary (generatedMark.toUTF8.data.toList ++ [255])))], ["work"]⟩

/-- The same directory with a generated text. -/
def repaired : FileTree := putText corrupted (["work", "g.rs"], generatedMark)

/-- A run on the current directory with the given output. -/
def callTo (output : String) : Call := ⟨⟨["."], [], some output, RuntimePath.defaultText⟩, ""⟩

section

variable {tree : FileTree} (output : String) (hd : tree.find "." = .ok (["work"], .directory))
  (hlist : tree.list "." = .ok ["a.rs", "g.rs"])
include hd hlist

/-- The names are in order, so it can be computed what is read. -/
theorem sources_callTo : (callTo output).config.sources tree =
    (((["a.rs", "g.rs"].filter (SourceSet.isRead tree (some output) ".")).map
      (FilePath.join ".")).mapM (SourceSet.readFile tree true)).bind fun files =>
        if files.isEmpty then .error (.noSources ".")
        else .ok ⟨SourceSet.directoryName tree ".", ".", files⟩ := by
  rw [← SourceSet.keptNames_of_sorted (by decide +kernel), ← SourceSet.ofDirectory_eq hlist,
    sources, Call.singleDirectory?_eq rfl hd]
  rfl

/-- If there are files to read and none has items, the run yields a unit. -/
theorem report_callTo_eq_ok (hfiles :
    ((((["a.rs", "g.rs"].filter (SourceSet.isRead tree (some output) ".")).map
      (FilePath.join ".")).mapM (SourceSet.readFile tree true)).toOption.map fun files =>
        (files.isEmpty, files.all (·.items.isEmpty))) = some (false, true)) :
    ∃ unit, ((callTo output).report tree).result = .ok unit := by
  obtain ⟨files, hread, hf⟩ := Option.map_eq_some_iff.mp hfiles
  obtain ⟨hne, hall⟩ := Prod.mk.inj hf
  have hsources := sources_callTo output hd hlist
  rw [toOption_eq_some.mp hread] at hsources
  simp only [Except.bind, hne, Bool.false_eq_true, if_false] at hsources
  rw [Call.report, generate, hsources]
  refine GeneratedUnit.generate_of_items_eq_nil (fun file hfile => ?_) _
  simpa using List.all_eq_true.mp hall file hfile

end

theorem wellFormed_corrupted : corrupted.WellFormed := ⟨by decide +kernel, by decide +kernel⟩

theorem find_corrupted : corrupted.find "." = .ok (["work"], .directory) := by decide +kernel

/-- The file that is no text stops a run that does not write to it. -/
theorem report_corrupted (unit : GeneratedUnit) :
    ((callTo "b.rs").report corrupted).result ≠ .ok unit := by
  have hfails : ((callTo "b.rs").config.sources corrupted).toOption.isNone = true := by
    rw [sources_callTo "b.rs" find_corrupted (by decide +kernel)]
    decide +kernel
  intro h
  rw [Call.report, generate] at h
  cases hs : (callTo "b.rs").config.sources corrupted with
  | ok set =>
    rw [hs] at hfails
    cases hfails
  | error e =>
    rw [hs] at h
    cases h

/-- A run that writes to the file leaves a generated text there. -/
theorem regenerated_repaired : SourceSet.Regenerated ["work"] repaired
    (treeAfter corrupted [callTo "g.rs"]) := by
  obtain ⟨unit, hunit⟩ := report_callTo_eq_ok "g.rs" find_corrupted (by decide +kernel)
    (by decide +kernel)
  have htarget : (callTo "g.rs").target? corrupted = some ["work", "g.rs"] := by decide +kernel
  have hw : (callTo "g.rs").write? corrupted = some (["work", "g.rs"], unit.source) :=
    Call.write?_eq_some.mpr ⟨unit, hunit, htarget, rfl⟩
  have hafter : treeAfter corrupted [callTo "g.rs"] =
      putText corrupted (["work", "g.rs"], unit.source) := by
    change (callTo "g.rs").after corrupted = _
    rw [Call.after_eq, hw]
    rfl
  have hwf : repaired.WellFormed := ⟨by decide +kernel, by decide +kernel⟩
  have hdest : repaired.destination "g.rs" = .ok ["work", "g.rs"] := by decide +kernel
  have hmark : repaired.lookup? ["work", "g.rs"] = some (.file (.text generatedMark)) := by
    decide +kernel
  rw [hafter, putText, ← FileTree.put_put]
  refine (SourceSet.Regenerated.refl hwf ["work"]).put hwf hdest
    (Call.isMarked_of_report hunit).isGenerated ?_
  rintro name content hloc ⟨hfile, -, hgen⟩
  cases hmark.symm.trans (hloc ▸ hfile)
  exact absurd hgen (by decide +kernel)

/-- Runs are not independent where the proviso is about bytes: a run may replace a source that
begins with the mark but is no text, and that no other run can read. -/
theorem runs_dependent : ¬ ∀ (tree : FileTree) (path : String) (dir : Location)
    (calls : List Call), tree.WellFormed → tree.find path = .ok (dir, .directory) →
    (∀ call ∈ calls, call.config.inputs = [path] ∧ ∀ name content,
      tree.find (call.config.outputPath tree) = .ok (dir ++ [name], .file content) →
        isSourceName name = true → startsWithMark content = true) →
    ∀ before call after, calls = before ++ call :: after →
      call.report (treeAfter tree before) = call.report tree := by
  intro h
  have hcalls : ∀ call ∈ [callTo "g.rs", callTo "b.rs"], call.config.inputs = ["."] ∧
      ∀ name content, corrupted.find (call.config.outputPath corrupted) =
        .ok (["work"] ++ [name], .file content) → isSourceName name = true →
          startsWithMark content = true := by
    have hg : corrupted.find "g.rs" = .ok (["work", "g.rs"],
        .file (.binary (generatedMark.toUTF8.data.toList ++ [255]))) := by decide +kernel
    have hb : corrupted.find "b.rs" = .error .notFound := by decide +kernel
    simp only [List.forall_mem_cons, List.not_mem_nil, false_imp_iff, implies_true, and_true]
    refine ⟨⟨rfl, fun name content hf _ => ?_⟩, ⟨rfl, fun name content hf => ?_⟩⟩
    · cases hg.symm.trans hf
      decide +kernel
    · cases hb.symm.trans hf
  have heq := h corrupted "." ["work"] _ wellFormed_corrupted find_corrupted hcalls
    [callTo "g.rs"] (callTo "b.rs") [] rfl
  have hwf : repaired.WellFormed := ⟨by decide +kernel, by decide +kernel⟩
  have hd : repaired.find "." = .ok (["work"], .directory) := by decide +kernel
  obtain ⟨unit, hunit⟩ := report_callTo_eq_ok "b.rs" hd (by decide +kernel)
    (by decide +kernel)
  rw [← Call.report_eq regenerated_repaired hwf hd rfl, heq] at hunit
  exact report_corrupted unit hunit

end Configuration

end TaggedRows
