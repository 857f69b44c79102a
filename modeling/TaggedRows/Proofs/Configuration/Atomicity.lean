import TaggedRows.CommandLine
import TaggedRows.Proofs.Configuration.Runs

/-!
# What runs leave behind

- **Tasks** (`FileTask`): steps on a file tree, one after the other. A step that fails ends the
  task, and what earlier steps have done to the tree stays.
- **Runs as tasks** (`Configuration.task`, `CommandLine.task`): the steps of a run in their order.
  The task ends as the run does, and leaves the tree of the run (`Configuration.on_task`,
  `CommandLine.on_task`).
- **All or nothing** (`run_allOrNothing`): a run that fails leaves the tree as it is, and one that
  succeeds has replaced the text of one file (`FileTree.Rewritten`).
-/

namespace TaggedRows

/-! ## Tasks -/

/-- Steps on a file tree, which is left behind whether or not they succeed. -/
abbrev FileTask (ε α : Type) := ExceptT ε (StateM FileTree) α

namespace FileTask

variable {ε ε' α β : Type}

/-- The result of a task on a tree, and the tree after it. -/
def on (task : FileTask ε α) (tree : FileTree) : Except ε α × FileTree := task.run.run tree

/-- What is found in the tree. -/
def look (f : FileTree → Except ε α) : FileTask ε α := do ofExcept (f (← get))

/-- Writes a text to a path. A write that fails leaves the tree as it is. -/
def write (path text : String) : FileTask Failure Unit := do
  let after ← look fun tree => (tree.writeText path text).mapError (.io path)
  set after

@[simp] theorem on_pure (a : α) (tree : FileTree) :
    (pure a : FileTask ε α).on tree = (.ok a, tree) := rfl

@[simp] theorem on_ofExcept (result : Except ε α) (tree : FileTree) :
    on (ofExcept result) tree = (result, tree) := by
  cases result <;> rfl

theorem on_bind (task : FileTask ε α) (next : α → FileTask ε β) (tree : FileTree) :
    (task >>= next).on tree =
      match task.on tree with
      | (.ok a, tree') => (next a).on tree'
      | (.error e, tree') => (.error e, tree') := by
  simp only [on, ExceptT.run_bind, StateT.run_bind]
  rcases task.run.run tree with ⟨⟨_⟩ | ⟨_⟩, _⟩ <;> rfl

@[simp] theorem on_look (f : FileTree → Except ε α) (tree : FileTree) :
    (look f).on tree = (f tree, tree) := by
  rw [look, on_bind]
  exact on_ofExcept (f tree) tree

theorem on_write (path text : String) (tree : FileTree) : (write path text).on tree =
    match tree.writeText path text with
    | .ok after => (.ok (), after)
    | .error cause => (.error (.io path cause), tree) := by
  rw [write, on_bind, on_look]
  cases tree.writeText path text <;> rfl

theorem on_adapt (f : ε → ε') (task : FileTask ε α) (tree : FileTree) :
    on (ExceptT.adapt f task) tree = ((task.on tree).1.mapError f, (task.on tree).2) := by
  rfl

end FileTask

/-! ## Runs as tasks -/

open FileTask

/-- The steps of a run. It gives the path of the unit and the unit. -/
def Configuration.task (config : Configuration) (invocation : String) :
    FileTask Failure (String × GeneratedUnit) := do
  let output ← look fun tree => .ok (config.outputPath tree)
  let set ← look config.sources
  let unit ← ofExcept (GeneratedUnit.generate set config.runtimePath invocation config.types).result
  FileTask.write output unit.source
  return (output, unit)

/-- The steps end as the run does, and they leave its tree. -/
theorem Configuration.on_task (config : Configuration) (invocation : String) (tree : FileTree) :
    (config.task invocation).on tree =
      ((config.run tree invocation).result.map Outcome.yielded,
        ((config.run tree invocation).result.toOption.map Outcome.tree).getD tree) := by
  rw [task, on_bind, on_look, run, Report.result_bind, generate, Report.result_bind]
  simp only [on_bind, on_look, Report.ofExcept]
  cases config.sources tree with
  | error e => rfl
  | ok set =>
    simp only [Except.bind, on_ofExcept]
    cases (GeneratedUnit.generate set config.runtimePath invocation config.types).result with
    | error e => rfl
    | ok unit =>
      simp only [on_write, Configuration.write]
      cases tree.writeText (config.outputPath tree) unit.source <;> rfl

namespace CommandLine

/-- Why a command stops. -/
inductive Stop where
  | refused (r : Refusal)
  | failed (message : String)
  deriving DecidableEq, Repr

/-- The exit code of a command. -/
def exitCode {α : Type} : Except Stop α → Nat
  | .ok _ => 0
  | .error (.refused r) => r.exitCode
  | .error (.failed _) => 1

/-- The steps of a command. -/
def task (args : List String) : FileTask Stop (String × GeneratedUnit) := do
  let arguments ← ofExcept ((Arguments.ofList args).mapError .refused)
  let config ← look fun tree => (arguments.configuration tree).mapError .failed
  ExceptT.adapt (fun e => .failed e.message) (config.task (" ".intercalate args))

/-- What a command gives, or why it stops. -/
def Ending.result : Ending → Except Stop (String × GeneratedUnit)
  | .refused r => .error (.refused r)
  | .failed message => .error (.failed message)
  | .completed outcome => .ok outcome.yielded

/-- The steps end as the command does, and they leave its tree. -/
theorem on_task (args : List String) (tree : FileTree) :
    (task args).on tree = ((run tree args).2.result, (run tree args).2.tree tree) := by
  rw [task, run, on_bind, on_ofExcept]
  cases Arguments.ofList args with
  | error r => rfl
  | ok arguments =>
    simp only [Except.mapError, on_bind, on_look]
    cases arguments.configuration tree with
    | error message => rfl
    | ok config =>
      simp only [on_adapt, Configuration.on_task]
      cases (config.run tree (" ".intercalate args)).result <;> rfl

end CommandLine

/-! ## All or nothing -/

/-- The second tree is the first one with a text in the file that the path leads to. -/
structure FileTree.Rewritten (before after : FileTree) (path text : String) : Prop where
  current : after.current = before.current
  /-- The file, and that no other location has changed. -/
  file : ∃ loc, before.destination path = .ok loc ∧
    after.lookup? loc = some (.file (.text text)) ∧
    ∀ other, other ≠ loc → after.lookup? other = before.lookup? other
  readText : before.WellFormed → after.readText path = .ok text

namespace FileTree

variable {before after : FileTree} {path text : String} {loc : Location}

/-- The root cannot be written to. -/
theorem ne_nil_of_destination (h : before.destination path = .ok loc) : loc ≠ [] := by
  rintro rfl
  rw [destination] at h
  split at h
  · cases h
  · next hfind =>
    cases h
    cases (find_eq_ok.mp hfind).2
  · split at h
    · cases h
    simp only at h
    split at h
    · cases h
    · split at h
      · cases h
      · split at h
        · cases h
        · split at h <;> simp at h
  · cases h

/-- A file in the place of no directory adds no directory and takes no entry away. -/
theorem grows_put (hn : before.lookup? loc ≠ some .directory) (content : FileContent) :
    Grows before (before.put loc (.file content)) where
  current := rfl
  directory other := by
    rw [lookup?_put]
    split
    · next he => simp [he.1, hn]
    · rfl
  present other ho := by
    rw [lookup?_put]
    split
    · rfl
    · exact ho

/-- A write replaces the text of one file, and that is the text that is read from then on. -/
theorem rewritten_of_writeText (h : before.writeText path text = .ok after) :
    before.Rewritten after path text := by
  obtain ⟨loc, hdest, rfl⟩ := map_eq_ok.mp h
  have hloc : (before.put loc (.file (.text text))).lookup? loc = some (.file (.text text)) := by
    rw [lookup?_put, if_pos ⟨rfl, ne_nil_of_destination hdest⟩]
  refine ⟨rfl, ⟨loc, hdest, hloc, fun other ho => ?_⟩, fun hwf => ?_⟩
  · rw [lookup?_put, if_neg (fun he => ho he.1)]
  · obtain ⟨dir, name, hleads, rfl, hn⟩ := hwf.destination_eq_ok_iff.mp hdest
    rw [readText, ((grows_put hn _).leads_iff.mpr hleads).find_eq_ok.mpr ⟨rfl, hloc⟩]

end FileTree

namespace Configuration

/-- A run that completes has written its unit, and that is all. -/
theorem rewritten_of_run {config : Configuration} {tree : FileTree} {invocation : String}
    {outcome : Outcome} (h : (config.run tree invocation).result = .ok outcome) :
    outcome.output = config.outputPath tree ∧
      tree.Rewritten outcome.tree (config.outputPath tree) outcome.unit.source := by
  rw [run, Report.result_bind] at h
  obtain ⟨unit, -, hwrite⟩ := bind_eq_ok.mp h
  rw [Report.ofExcept, write] at hwrite
  split at hwrite
  · next after hafter =>
    cases hwrite
    exact ⟨rfl, FileTree.rewritten_of_writeText hafter⟩
  · cases hwrite

end Configuration

variable {ε : Type}

/-- A task has failed, and the tree is as it was. -/
def LeavesNothing (tree : FileTree) (ending : Except ε (String × GeneratedUnit) × FileTree) :
    Prop :=
  (∃ e, ending.1 = .error e) ∧ ending.2 = tree

/-- A task has given a unit, and its text is in the file that the configuration names. -/
def LeavesUnit (tree : FileTree) (config : Configuration)
    (ending : Except ε (String × GeneratedUnit) × FileTree) : Prop :=
  ∃ unit, ending.1 = .ok (config.outputPath tree, unit) ∧
    tree.Rewritten ending.2 (config.outputPath tree) unit.source

/-- The steps of a run leave nothing, or the unit. -/
theorem leaves_task (config : Configuration) (invocation : String) (tree : FileTree) :
    LeavesNothing tree ((config.task invocation).on tree) ∨
      LeavesUnit tree config ((config.task invocation).on tree) := by
  rw [Configuration.on_task]
  cases h : (config.run tree invocation).result with
  | error e => exact .inl ⟨⟨e, rfl⟩, rfl⟩
  | ok outcome =>
    obtain ⟨houtput, hrewritten⟩ := Configuration.rewritten_of_run h
    exact .inr ⟨outcome.unit, by rw [← houtput]; rfl, hrewritten⟩

/-- Runs leave a tree as it is if they fail, and else with the unit in the file that it is for. So
do commands. -/
theorem run_allOrNothing (tree : FileTree) :
    (∀ (config : Configuration) (invocation : String),
      let ending := (config.task invocation).on tree
      ending.1 = (config.run tree invocation).result.map Configuration.Outcome.yielded ∧
        (LeavesNothing tree ending ∨ LeavesUnit tree config ending)) ∧
    ∀ (args : List String) (arguments : CommandLine.Arguments),
      CommandLine.Arguments.ofList args = .ok arguments →
        let ending := (CommandLine.task args).on tree
        ending = ((CommandLine.run tree args).2.result, (CommandLine.run tree args).2.tree tree) ∧
          (CommandLine.exitCode ending.1 = 1 ∧ LeavesNothing tree ending ∨
            CommandLine.exitCode ending.1 = 0 ∧ ∃ config,
              arguments.configuration tree = .ok config ∧ LeavesUnit tree config ending) := by
  refine ⟨fun config invocation => ?_, fun args arguments hargs => ?_⟩
  · exact ⟨by rw [Configuration.on_task], leaves_task config invocation tree⟩
  refine ⟨CommandLine.on_task args tree, ?_⟩
  rw [CommandLine.task, FileTask.on_bind, FileTask.on_ofExcept, hargs]
  simp only [Except.mapError, FileTask.on_bind, FileTask.on_look]
  cases arguments.configuration tree with
  | error message => exact .inl ⟨rfl, ⟨_, rfl⟩, rfl⟩
  | ok config =>
    simp only [FileTask.on_adapt]
    obtain ⟨⟨e, he⟩, hafter⟩ | ⟨unit, hunit, hrewritten⟩ :=
      leaves_task config (" ".intercalate args) tree
    · rw [he]
      exact .inl ⟨rfl, ⟨_, rfl⟩, hafter⟩
    · rw [hunit]
      exact .inr ⟨rfl, config, rfl, unit, rfl, hrewritten⟩

/-- A command whose output is one of its inputs. -/
theorem run_allOrNothing_overInput :
    CommandLine.Arguments.ofList ["-o", "a.rs", "a.rs", "g.rs"] =
        .ok ⟨none, some "a.rs", none, none, false, ["a.rs", "g.rs"]⟩ ∧
      let ending := (CommandLine.task ["-o", "a.rs", "a.rs", "g.rs"]).on Configuration.repaired
      CommandLine.exitCode ending.1 = 1 ∧ LeavesNothing Configuration.repaired ending ∨
        CommandLine.exitCode ending.1 = 0 ∧ ∃ config : Configuration,
          config.outputPath Configuration.repaired = "a.rs" ∧
            LeavesUnit Configuration.repaired config ending := by
  have hargs : CommandLine.Arguments.ofList ["-o", "a.rs", "a.rs", "g.rs"] =
      .ok ⟨none, some "a.rs", none, none, false, ["a.rs", "g.rs"]⟩ := by decide +kernel
  obtain ⟨-, h | ⟨hcode, config, hconfig, hunit⟩⟩ :=
    (run_allOrNothing Configuration.repaired).2 _ _ hargs
  · exact ⟨hargs, .inl h⟩
  · cases hconfig
    exact ⟨hargs, .inr ⟨hcode, _, rfl, hunit⟩⟩

end TaggedRows
