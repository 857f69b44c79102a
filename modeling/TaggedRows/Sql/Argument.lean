import TaggedRows.Sql.Fault

/-!
# Arguments

An argument is what a caller hands over for a parameter of a statement. It is converted to a value
when it is bound, and that may fail: a type may refuse one of its own values, and an integer may be
greater than any that a database holds.
-/

namespace TaggedRows.Sql

inductive Argument where
  | value (v : Value)
  /-- The type of the argument refuses to convert it. -/
  | refused (message : String)
  deriving DecidableEq, Repr

instance : Coe Value Argument := ⟨.value⟩
instance : Coe (List Value) (List Argument) := ⟨List.map .value⟩
instance : Coe (List (List Value)) (List (List Argument)) := ⟨List.map (List.map .value)⟩
instance {α : Type} : Coe (List (α × Value)) (List (α × Argument)) :=
  ⟨List.map fun (a, v) => (a, .value v)⟩

namespace Argument

/-- The value that is bound for an argument. -/
def bound : Argument → Except Fault Value
  | value (.integer n) =>
    if minInteger ≤ n ∧ n ≤ maxInteger then .ok (.integer n)
    else .error (.conversion "out of range integral type conversion attempted")
  | value v => .ok v
  | refused message => .error (.conversion message)

/-- The values that are bound for the parameters of a statement. As many arguments as there are
parameters are converted before all of them are counted. -/
def boundFor (needed : Nat) (arguments : List Argument) : Except Fault (List Value) := do
  let values ← (arguments.take needed).mapM bound
  if arguments.length ≠ needed then
    .error (.parameterCount (min arguments.length (needed + 1)) needed)
  return values

end Argument

end TaggedRows.Sql
