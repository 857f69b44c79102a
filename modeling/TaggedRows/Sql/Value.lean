/-!
# Database values

A value is null, a number, a text or bytes, and values of all kinds are ordered: nulls first, then
numbers by size, then texts, then bytes. A column has an *affinity*: a kind that it prefers, and to
which a value is converted where nothing is lost by it. Comparisons convert in the same way.

Numbers that are not integers are floating-point numbers. Each of them is written as the decimal
that it is exactly, and comparing them is exact. Which of them stands for a decimal, and what its
text is, is left to the `Engine`.
-/

namespace TaggedRows.Sql

/-! ## Decimals -/

/-- The number `mantissa * 10 ^ exponent`. -/
structure Decimal where
  mantissa : Int
  exponent : Int
  deriving DecidableEq, Repr

namespace Decimal

variable (d : Decimal)

/-- A power of ten. -/
def powerOfTen (n : Nat) : Nat := Nat.pow 10 n

/-- The number of digits before the point, when the number is not zero. -/
def magnitude : Int := (Nat.toDigits 10 d.mantissa.natAbs).length + d.exponent

/-- Orders two numbers. Numbers of one sign and magnitude differ little in their exponents, so
that only those are scaled. -/
def compare (a b : Decimal) : Ordering :=
  match Ord.compare a.mantissa.sign b.mantissa.sign with
  | .eq =>
    if a.mantissa = 0 then .eq
    else
      match Ord.compare a.magnitude b.magnitude with
      | .eq =>
        let low := min a.exponent b.exponent
        Ord.compare (a.mantissa * powerOfTen (a.exponent - low).toNat)
          (b.mantissa * powerOfTen (b.exponent - low).toNat)
      | o => if a.mantissa < 0 then o.swap else o
  | o => o

/-- The integer that a number of at most 20 digits equals, if it does. -/
def toInt? : Option Int :=
  if d.mantissa = 0 then some 0
  else if 20 < d.magnitude then none
  else if 0 ≤ d.exponent then some (d.mantissa * powerOfTen d.exponent.toNat)
  else if d.magnitude ≤ 0 then none
  else
    let scale : Int := powerOfTen (-d.exponent).toNat
    if d.mantissa % scale = 0 then some (d.mantissa / scale) else none

def negate : Decimal := { d with mantissa := -d.mantissa }

end Decimal

/-- The range of integers. -/
def minInteger : Int := -9223372036854775808
def maxInteger : Int := 9223372036854775807

/-! ## Engines -/

/-- What depends on the engine of a database. -/
class Engine where
  /-- The floating-point number that a decimal is read as. -/
  round : Decimal → Decimal
  /-- The text of a floating-point number. -/
  textOf : Decimal → String
  /-- The number of a new row when the greatest one is among the taken ones. -/
  spare : List Int → Int
  spare_pos (taken : List Int) : 1 ≤ spare taken
  spare_notMem (taken : List Int) : spare taken ∉ taken
  /-- A number that is out of range means that there is none left. -/
  exists_of_lt_spare (taken : List Int) :
    maxInteger < spare taken → ∀ i, 1 ≤ i → i ≤ maxInteger → i ∈ taken

/-! ## Values -/

inductive Value where
  | null
  | integer (n : Int)
  /-- The floating-point number that is exactly the decimal. -/
  | real (d : Decimal)
  | text (s : String)
  | blob (bytes : List UInt8)
  deriving DecidableEq, Repr

namespace Value

/-- The name of a value's kind. -/
def kindName : Value → String
  | null => "Null"
  | integer _ => "Integer"
  | real _ => "Real"
  | text _ => "Text"
  | blob _ => "Blob"

/-- An integer within the range, and a decimal outside of it. -/
def ofInt (n : Int) : Value :=
  if minInteger ≤ n ∧ n ≤ maxInteger then integer n else real ⟨n, 0⟩

def ofBool (b : Bool) : Value := integer (if b then 1 else 0)

/-! ### Order -/

/-- The place of a kind in the order. -/
def rank : Value → Nat
  | null => 0
  | integer _ | real _ => 1
  | text _ => 2
  | blob _ => 3

/-- Orders bytes like words in a dictionary. -/
def compareBytes : List UInt8 → List UInt8 → Ordering
  | [], [] => .eq
  | [], _ :: _ => .lt
  | _ :: _, [] => .gt
  | a :: as, b :: bs =>
    match Ord.compare a b with
    | .eq => compareBytes as bs
    | o => o

/-- Orders two values. -/
def compare : Value → Value → Ordering
  | integer a, integer b => Ord.compare a b
  | integer a, real b => Decimal.compare ⟨a, 0⟩ b
  | real a, integer b => a.compare ⟨b, 0⟩
  | real a, real b => a.compare b
  | text a, text b => Ord.compare a b
  | blob a, blob b => compareBytes a b
  | a, b => Ord.compare a.rank b.rank

/-! ### Numbers in texts -/

variable [Engine]

/-- The value that stands for a value as it is written. -/
def rounded : Value → Value
  | real d => real (Engine.round d)
  | v => v

def isSpace (c : Char) : Bool := c ∈ [' ', '\t', '\n', '\x0b', '\x0c', '\x0d']

/-- The number that decimal digits denote. -/
def digitsValue (cs : List Char) : Nat := cs.foldl (fun n c => 10 * n + (c.toNat - '0'.toNat)) 0

/-- The exponent behind a number and the text after it; without digits there is none. -/
def exponentOf (cs : List Char) : Int × List Char :=
  match cs with
  | 'e' :: rest | 'E' :: rest =>
    let (sign, digits) := match rest with
      | '-' :: ds => (-1, ds)
      | '+' :: ds => (1, ds)
      | ds => ((1 : Int), ds)
    let ds := digits.takeWhile Char.isDigit
    if ds = [] then (0, cs) else (sign * digitsValue ds, digits.drop ds.length)
  | _ => (0, cs)

/-- The number that a text begins with, and the text after it. -/
def numberPrefix? (cs : List Char) : Option (Value × List Char) :=
  let cs := cs.dropWhile isSpace
  let (sign, cs) := match cs with
    | '-' :: rest => ((-1 : Int), rest)
    | '+' :: rest => (1, rest)
    | _ => (1, cs)
  let whole := cs.takeWhile Char.isDigit
  let rest := cs.drop whole.length
  let (hasPoint, rest) := match rest with
    | '.' :: rest => (true, rest)
    | _ => (false, rest)
  let fraction := if hasPoint then rest.takeWhile Char.isDigit else []
  let rest := rest.drop fraction.length
  if whole = [] && fraction = [] then none
  else
    let (exponent, after) := exponentOf rest
    let mantissa := sign * digitsValue (whole ++ fraction)
    let v :=
      if hasPoint || after.length ≠ rest.length then real ⟨mantissa, exponent - fraction.length⟩
      else ofInt mantissa
    some (v.rounded, after)

/-- The number that a whole text denotes; blanks around it do not matter. -/
def numberOf? (s : String) : Option Value :=
  match numberPrefix? s.toList with
  | some (v, rest) => if rest.all isSpace then some v else none
  | none => none

/-- A value as a number: a text counts as the number it begins with. -/
def toNumber : Value → Value
  | text s => ((numberPrefix? s.toList).map Prod.fst).getD (integer 0)
  | blob bytes =>
    ((numberPrefix? (bytes.map fun b => Char.ofNat b.toNat)).map Prod.fst).getD (integer 0)
  | v => v

/-- A value as a condition; null is neither true nor false. -/
def truth? (v : Value) : Option Bool :=
  match v.toNumber with
  | integer n => some (n ≠ 0)
  | real d => some (d.mantissa ≠ 0)
  | _ => none

/-- The value with the opposite sign. -/
def negate (v : Value) : Value :=
  match v.toNumber with
  | integer n => (ofInt (-n)).rounded
  | real d => real d.negate
  | v => v

/-- A value as a text. -/
def toText? : Value → Option String
  | null => none
  | integer n => some (toString n)
  | real d => some (Engine.textOf d)
  | text s => some s
  | blob bytes => some (String.ofList (bytes.map fun b => Char.ofNat b.toNat))

end Value

/-! ## Affinities -/

/-- The kind of value that a column prefers. -/
inductive Affinity where
  | text
  | integer
  | numeric
  | real
  | none
  deriving DecidableEq, Repr

namespace Affinity

/-- A text stands somewhere in another one. -/
def occursIn (part : List Char) : List Char → Bool
  | [] => part = []
  | c :: cs => part.isPrefixOf (c :: cs) || occursIn part cs

/-- The affinity of a declared type, found by what its name contains. -/
def ofType (name : String) : Affinity :=
  let has (part : String) := occursIn part.toList name.toLower.toList
  if has "int" then integer
  else if has "char" || has "clob" || has "text" then text
  else if has "blob" || name = "" then none
  else if has "real" || has "floa" || has "doub" then real
  else numeric

/-- The affinity prefers numbers. -/
def isNumeric : Affinity → Bool
  | integer | numeric | real => true
  | text | none => false

/-- Turns a number that equals an integer into that integer. -/
def integral : Value → Value
  | .real d =>
    match d.toInt? with
    | some n => if minInteger < n ∧ n < maxInteger then .integer n else .real d
    | .none => .real d
  | v => v

variable [Engine]

/-- Converts a number to a text. -/
def textOfNumber : Value → Value
  | .integer n => .text (toString n)
  | .real d => .text (Engine.textOf d)
  | v => v

/-- Converts a text to the number that it denotes, if it does. -/
def numberOfText : Value → Value
  | .text s => (Value.numberOf? s).getD (.text s)
  | v => v

/-- The form in which a column with the affinity keeps a value. -/
def apply : Affinity → Value → Value
  | text, v => textOfNumber v
  | integer, v | numeric, v => integral (numberOfText v)
  | real, v =>
    match numberOfText v with
    | .integer n => .real (Engine.round ⟨n, 0⟩)
    | v => v
  | none, v => v

/-- The affinity of a comparison, from the affinities of those of its sides that are columns. -/
def ofComparison : Option Affinity → Option Affinity → Affinity
  | some a, some b => if a.isNumeric || b.isNumeric then numeric else none
  | some a, .none | .none, some a => a
  | .none, .none => none

/-- The form in which a comparison with the affinity takes a value. -/
def forComparison : Affinity → Value → Value
  | text, v => textOfNumber v
  | integer, v | numeric, v | real, v => numberOfText v
  | none, v => v

end Affinity

end TaggedRows.Sql
