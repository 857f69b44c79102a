import TaggedRows.Text.Blank

/-!
# Timestamps

A timestamp is a day, a second of the day and a part of the second, in universal time. A leap second
is kept as a part of a second beyond the whole one, so that `23:59:60` is the last second of its
minute grown longer.

Days are counted from the first of January 1970 in the Gregorian calendar, which is extended to all
years. `Timestamp.ofColumn` reads what a column may hold, and `columnText` and `jsonText` are the
two forms that are written.
-/

namespace TaggedRows

/-- A day of the calendar. -/
structure CalendarDay where
  year : Int
  month : Nat
  day : Nat
  deriving DecidableEq, Repr

namespace CalendarDay

def isLeapYear (year : Int) : Bool :=
  year % 4 = 0 && (year % 100 ≠ 0 || year % 400 = 0)

def daysInMonth (year : Int) (month : Nat) : Nat :=
  if month = 2 then if isLeapYear year then 29 else 28
  else if month ∈ [4, 6, 9, 11] then 30
  else 31

/-- The first and the last year that a timestamp may lie in. -/
def minYear : Int := -262143
def maxYear : Int := 262142

/-- The date exists and is within the range of years. -/
def isValid (d : CalendarDay) : Bool :=
  minYear ≤ d.year && d.year ≤ maxYear && 1 ≤ d.month && d.month ≤ 12 && 1 ≤ d.day &&
    d.day ≤ daysInMonth d.year d.month

/-- The number of the day, counted from 1970. Years are taken to begin in March, so that the day a
leap year adds is their last. -/
def number (d : CalendarDay) : Int :=
  let y := if d.month ≤ 2 then d.year - 1 else d.year
  let era := y.fdiv 400
  let yearOfEra := y - era * 400
  let month := (if d.month ≤ 2 then d.month + 9 else d.month - 3 : Nat)
  let dayOfYear : Int := ((153 * month + 2) / 5 + d.day - 1 : Nat)
  let dayOfEra := yearOfEra * 365 + yearOfEra / 4 - yearOfEra / 100 + dayOfYear
  era * 146097 + dayOfEra - 719468

/-- The day with a number. -/
def ofNumber (n : Int) : CalendarDay :=
  let z := n + 719468
  let era := z.fdiv 146097
  let dayOfEra := z - era * 146097
  let yearOfEra := (dayOfEra - dayOfEra / 1460 + dayOfEra / 36524 - dayOfEra / 146096) / 365
  let dayOfYear := dayOfEra - (365 * yearOfEra + yearOfEra / 4 - yearOfEra / 100)
  let month := (5 * dayOfYear + 2) / 153
  let day := dayOfYear - (153 * month + 2) / 5 + 1
  let month' := if month < 10 then month + 3 else month - 9
  let year := yearOfEra + era * 400 + (if month' ≤ 2 then 1 else 0)
  ⟨year, month'.toNat, day.toNat⟩

end CalendarDay

/-- A point in universal time. -/
structure Timestamp where
  /-- The number of the day. -/
  day : Int
  second : Nat
  /-- From 0 on, and beyond a whole second only within a leap second. -/
  nano : Nat
  deriving DecidableEq, Repr

/-- Why a text is no timestamp. -/
inductive TimeFault where
  | tooShort
  | invalid
  | outOfRange
  | trailing
  deriving DecidableEq, Repr

namespace TimeFault

def message : TimeFault → String
  | tooShort => "premature end of input"
  | invalid => "input contains invalid characters"
  | outOfRange => "input is out of range"
  | trailing => "trailing input"

end TimeFault

namespace Timestamp

/-- The beginning of 1970. -/
def epoch : Timestamp := ⟨0, 0, 0⟩

/-- The number of nanoseconds in a second. -/
def giga : Nat := 1000000000

/-! ## Writing -/

/-- Decimal digits, at least as many as asked for. -/
def digits (width n : Nat) : List Char :=
  let ds := Nat.toDigits 10 n
  List.replicate (width - ds.length) '0' ++ ds

/-- A year has four digits; outside of those it has a sign. -/
def yearText (year : Int) : List Char :=
  if 0 ≤ year ∧ year ≤ 9999 then digits 4 year.toNat
  else (if year < 0 then '-' else '+') :: digits 4 year.natAbs

/-- The fraction of a second in three, six or nine digits, as few as hold it. -/
def fractionText (nano : Nat) : List Char :=
  let n := nano % giga
  if n = 0 then []
  else if n % 1000000 = 0 then '.' :: digits 3 (n / 1000000)
  else if n % 1000 = 0 then '.' :: digits 6 (n / 1000)
  else '.' :: digits 9 n

/-- Date and time with a character between them. -/
def text (t : Timestamp) (between : Char) : List Char :=
  let d := CalendarDay.ofNumber t.day
  yearText d.year ++ '-' :: digits 2 d.month ++ '-' :: digits 2 d.day ++ between ::
    digits 2 (t.second / 3600) ++ ':' :: digits 2 (t.second / 60 % 60) ++ ':' ::
    digits 2 (t.second % 60 + t.nano / giga) ++ fractionText t.nano

/-- The form in a column. -/
def columnText (t : Timestamp) : String := String.ofList (t.text ' ' ++ "+00:00".toList)

/-- The form in the answers of a program. -/
def jsonText (t : Timestamp) : String := String.ofList (t.text 'T' ++ ['Z'])

/-! ## Reading -/

/-- A reader of the beginning of a text. -/
abbrev Reader (α : Type) := List Char → Except TimeFault (α × List Char)

def isDigit (c : Char) : Bool := '0' ≤ c && c ≤ '9'

/-- The value of decimal digits. -/
def digitsValue (cs : List Char) : Nat := cs.foldl (fun n c => 10 * n + (c.toNat - '0'.toNat)) 0

/-- The greatest number that is read. -/
def maxNumber : Nat := 9223372036854775807

/-- Reads at least one digit, and at most the given number of them. -/
def readDigits (most : Option Nat) : Reader (List Char) := fun cs =>
  let window := match most with
    | some n => cs.take n
    | none => cs
  let ds := window.takeWhile isDigit
  if cs = [] then .error .tooShort
  else if ds = [] then .error .invalid
  else .ok (ds, cs.drop ds.length)

def readNumber (most : Option Nat) : Reader Nat := fun cs => do
  let (ds, rest) ← readDigits most cs
  if maxNumber < digitsValue ds then .error .outOfRange else .ok (digitsValue ds, rest)

/-- Reads a number of up to two digits within a range; blanks before it do not matter. -/
def readWithin (low high : Nat) : Reader Nat := fun cs => do
  let (n, rest) ← readNumber (some 2) (Text.trimStart cs)
  if low ≤ n ∧ n ≤ high then .ok (n, rest) else .error .outOfRange

/-- Reads a year: four digits, or any number of them behind a sign. -/
def readYear : Reader Int := fun cs =>
  let within (n : Int) (rest : List Char) : Except TimeFault (Int × List Char) :=
    if -2147483648 ≤ n ∧ n ≤ 2147483647 then .ok (n, rest) else .error .outOfRange
  match Text.trimStart cs with
  | '-' :: cs => do
    let (n, rest) ← readNumber none cs
    within (-(n : Int)) rest
  | '+' :: cs => do
    let (n, rest) ← readNumber none cs
    within n rest
  | cs => do
    let (n, rest) ← readNumber (some 4) cs
    within n rest

def readChar (c : Char) : Reader Unit := fun cs =>
  match cs with
  | [] => .error .tooShort
  | d :: rest => if c = d then .ok ((), rest) else .error .invalid

/-- Reads a fraction of a second, if a point begins one; digits beyond the ninth are dropped. -/
def readFraction : Reader Nat := fun cs =>
  match cs with
  | '.' :: cs => do
    let (ds, rest) ← readDigits (some 9) cs
    .ok (digitsValue ds * Nat.pow 10 (9 - ds.length), rest.dropWhile isDigit)
  | cs => .ok (0, cs)

/-- The digits of two characters. -/
def twoDigits? : List Char → Option (Option Nat × List Char)
  | a :: b :: rest =>
    some (if isDigit a && isDigit b then some (digitsValue [a, b]) else none, rest)
  | _ => none

/-- Reads the distance from universal time in seconds. Minutes may be left out, and stand behind
any colons and blanks. -/
def readOffset : Reader Int := fun cs =>
  match Text.trimStart cs with
  | [] => .error .tooShort
  | c :: rest =>
    if c = 'Z' ∨ c = 'z' then .ok (0, rest)
    else if c = '+' then signed 1 rest
    else if c = '-' ∨ c = '\u2212' then signed (-1) rest
    else .error .invalid
where
  signed (sign : Int) (cs : List Char) : Except TimeFault (Int × List Char) :=
    match twoDigits? cs with
    | none => .error .tooShort
    | some (none, _) => .error .invalid
    | some (some hours, rest) =>
      let rest := rest.dropWhile fun c => c = ':' || Text.isBlank c
      match twoDigits? rest with
      | some (some minutes, rest) =>
        if minutes < 60 then .ok (sign * (hours * 3600 + minutes * 60 : Nat), rest)
        else .error .outOfRange
      | some (none, _) => .error .invalid
      | none => if rest = [] then .ok (sign * (hours * 3600 : Nat), []) else .error .tooShort

/-- A date and a time of day as they are written, before it is known whether they exist. -/
structure Reading where
  day : CalendarDay
  hour : Nat
  minute : Nat
  second : Nat
  nano : Nat

/-- Reads a date and a time with a character between them. -/
def readParts (between : Char) : Reader Reading := fun cs => do
  let (year, cs) ← readYear cs
  let ((), cs) ← readChar '-' cs
  let (month, cs) ← readWithin 1 12 cs
  let ((), cs) ← readChar '-' cs
  let (day, cs) ← readWithin 1 31 cs
  let ((), cs) ← readChar between cs
  let (hour, cs) ← readWithin 0 23 cs
  let ((), cs) ← readChar ':' cs
  let (minute, cs) ← readWithin 0 59 cs
  let ((), cs) ← readChar ':' cs
  let (second, cs) ← readWithin 0 60 cs
  let (nano, cs) ← readFraction cs
  .ok (⟨⟨year, month, day⟩, hour, minute, second, nano⟩, cs)

/-- The timestamp that many seconds from universal time, if its date exists. -/
def ofReading (r : Reading) (offset : Int) : Except TimeFault Timestamp :=
  if !r.day.isValid then .error .outOfRange
  else
    let (second, nano) := if r.second = 60 then (59, r.nano + giga) else (r.second, r.nano)
    let total := ((r.hour * 3600 + r.minute * 60 + second : Nat) : Int) - offset
    let t : Timestamp := ⟨r.day.number + total.fdiv 86400, (total.fmod 86400).toNat, nano⟩
    let year := (CalendarDay.ofNumber t.day).year
    if CalendarDay.minYear ≤ year ∧ year ≤ CalendarDay.maxYear then .ok t else .error .outOfRange

/-- Reads a whole text with a distance from universal time, which is less than a day. -/
def readZoned (between : Char) (cs : List Char) : Except TimeFault Timestamp := do
  let (r, cs) ← readParts between cs
  let (offset, cs) ← readOffset cs
  if cs ≠ [] then .error .trailing
  else if offset.natAbs < 86400 then ofReading r offset
  else .error .outOfRange

/-- Reads a whole text in universal time. -/
def readPlain (between : Char) (cs : List Char) : Except TimeFault Timestamp := do
  let (r, cs) ← readParts between cs
  if cs ≠ [] then .error .trailing else ofReading r 0

/-- The character that stands between date and time, by the place of a `T`. -/
def separatorOf (text : String) : Char :=
  if text.toUTF8[10]? = some 'T'.toUInt8 then 'T' else ' '

/-- Reads the text in a column. Without a distance from universal time it means universal time; a
text that cannot be read is refused for what is wrong with it in that form. -/
def ofColumn (text : String) : Except TimeFault Timestamp :=
  let between := separatorOf text
  match readZoned between text.toList with
  | .ok t => .ok t
  | .error _ => readPlain between text.toList

/-- Reads a text with a distance from universal time, whichever character is between date and
time. -/
def ofText? (text : String) : Option Timestamp :=
  match readZoned 'T' text.toList with
  | .ok t => some t
  | .error _ => (readZoned ' ' text.toList).toOption

end Timestamp

end TaggedRows
