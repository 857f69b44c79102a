import TaggedRows.Configuration.Cursor

/-!
# Scalars

The three ways to write a text: plainly, in quotes, and as a block of indented lines. Each reader
gives the text that is meant and the place behind it. The bounds on the loops are the length of the
text.
-/

namespace TaggedRows.Configuration

/-! ## Plain scalars -/

/-- The characters that end a word inside of brackets. -/
def isFlowIndicator (c : Char) : Bool := [',', '[', ']', '{', '}'].contains c

/-- Takes the word of a plain scalar; a colon at its end is left. -/
def takeWord (inFlow : Bool) : Nat → Cursor → Option (List Char × Cursor)
  | 0, cur => some ([], cur)
  | fuel + 1, cur =>
    match cur.rest with
    | [] => some ([], cur)
    | c :: _ =>
      if isBlank c || isBreak c then some ([], cur)
      else if inFlow && c = ':' && (cur.peek 1).any (fun d => isFlowIndicator d || d = '?') then
        none
      else if (c = ':' && cur.isBlankOrEndAt 1) || (inFlow && isFlowIndicator c) then some ([], cur)
      else (takeWord inFlow fuel (cur.skip 1)).map fun (cs, next) => (c :: cs, next)

/-- Takes the words of a plain scalar, the gap before them being given. Also tells whether the
scalar ended after a line break. -/
def takePlain (inFlow : Bool) (column : Nat) : Nat → Gap → Cursor →
    Option (List Char × Bool × Cursor)
  | 0, gap, cur => some ([], gap.first.isSome, cur)
  | fuel + 1, gap, cur =>
    if cur.atMark || cur.at? '#' then some ([], gap.first.isSome, cur)
    else
      (takeWord inFlow cur.rest.length cur).bind fun (word, next) =>
        if word = [] then some ([], gap.first.isSome, next)
        else if !(next.atBlank || next.atBreak) then some (gap.text ++ word, false, next)
        else
          (Gap.take column next.rest.length .empty next).bind fun (gap', behind) =>
            if !inFlow && behind.column < column then
              some (gap.text ++ word, gap'.first.isSome, behind)
            else
              (takePlain inFlow column fuel gap' behind).map fun (cs, ended, last) =>
                (gap.text ++ word ++ cs, ended, last)

/-! ## Quoted scalars -/

def hexDigit? (c : Char) : Option Nat :=
  if '0' ≤ c ∧ c ≤ '9' then some (c.toNat - '0'.toNat)
  else if 'a' ≤ c ∧ c ≤ 'f' then some (c.toNat - 'a'.toNat + 10)
  else if 'A' ≤ c ∧ c ≤ 'F' then some (c.toNat - 'A'.toNat + 10)
  else none

/-- The value of hexadecimal digits. -/
def hexValue? (cs : List Char) : Option Nat :=
  cs.foldlM (fun n c => (hexDigit? c).map (16 * n + ·)) 0

/-- The character that an escape of one letter stands for. -/
def escapeLetter? : Char → Option Char
  | '0' => some '\x00'
  | 'a' => some '\x07'
  | 'b' => some '\x08'
  | 't' | '\t' => some '\t'
  | 'n' => some '\n'
  | 'v' => some '\x0b'
  | 'f' => some '\x0c'
  | 'r' => some '\r'
  | 'e' => some '\x1b'
  | ' ' => some ' '
  | '"' => some '"'
  | '/' => some '/'
  | '\\' => some '\\'
  | 'N' => some '\x85'
  | '_' => some '\xa0'
  | 'L' => some '\u2028'
  | 'P' => some '\u2029'
  | _ => none

/-- The number of digits of an escape by code. -/
def escapeDigits? : Char → Option Nat
  | 'x' => some 2
  | 'u' => some 4
  | 'U' => some 8
  | _ => none

/-- Reads what follows a backslash: the character, and the number of characters taken. -/
def escape? : List Char → Option (Char × Nat)
  | [] => none
  | c :: cs =>
    match escapeLetter? c with
    | some d => some (d, 1)
    | none =>
      (escapeDigits? c).bind fun n =>
        if (cs.take n).length = n then
          (hexValue? (cs.take n)).bind fun code =>
            if code.isValidChar then some (Char.ofNat code, n + 1) else none
        else none

/-- Takes a quoted scalar from behind its first quote. The gap is what has been skipped since the
last word. -/
def takeQuoted (quote : Char) : Nat → Cursor → Option (List Char × Cursor)
  | 0, _ => none
  | fuel + 1, cur =>
    match cur.rest with
    | [] => none
    | c :: cs =>
      if cur.atMark then none
      else if isBlank c || isBreak c then gapThen .empty cur fuel
      else if c = quote then
        if quote = '\'' ∧ cs.head? = some '\'' then
          (takeQuoted quote fuel (cur.skip 2)).map fun (ds, next) => ('\'' :: ds, next)
        else some ([], cur.skip 1)
      else if quote = '"' ∧ c = '\\' then
        if cs.head?.any isBreak then
          gapThen ⟨[], some [], []⟩ (cur.skip 1).takeBreak.2 fuel
        else
          (escape? cs).bind fun (d, n) =>
            (takeQuoted quote fuel (cur.skip (n + 1))).map fun (ds, next) => (d :: ds, next)
      else (takeQuoted quote fuel (cur.skip 1)).map fun (ds, next) => (c :: ds, next)
where
  gapThen (gap : Gap) (cur : Cursor) (fuel : Nat) : Option (List Char × Cursor) :=
    (Gap.take 0 cur.rest.length gap cur).bind fun (gap, next) =>
      (takeQuoted quote fuel next).map fun (ds, last) => (gap.text ++ ds, last)

/-! ## Blocks of lines -/

/-- What happens to the line breaks at the end of a block. -/
inductive Chomping where
  | strip
  /-- One line break is kept. -/
  | clip
  | keep
  deriving DecidableEq, Repr

/-- The marks behind the first character of a block: chomping and indent, in either order. -/
def blockHeader (cur : Cursor) : Option (Chomping × Option Nat × Cursor) :=
  let chomping? : Char → Option Chomping
    | '+' => some .keep
    | '-' => some .strip
    | _ => none
  let digit? (c : Char) : Option Nat := if '0' ≤ c ∧ c ≤ '9' then hexDigit? c else none
  let takeChomping (cur : Cursor) : Option Chomping × Cursor :=
    match (cur.peek 0).bind chomping? with
    | some k => (some k, cur.skip 1)
    | none => (none, cur)
  let takeDigit (cur : Cursor) : Option Nat × Cursor :=
    match (cur.peek 0).bind digit? with
    | some n => (some n, cur.skip 1)
    | none => (none, cur)
  let (before, cur) := takeChomping cur
  let (indent, cur) := takeDigit cur
  let (after, cur) := if before.isSome then (none, cur) else takeChomping cur
  if indent = some 0 then none else some ((before.or after).getD .clip, indent, cur)

/-- Skips blanks and a comment at the end of a line. -/
def skipLineEnd (cur : Cursor) : Cursor :=
  let cur := cur.skipWhile isBlank
  if cur.at? '#' then cur.skipWhile fun c => !isBreak c else cur

/-- Takes empty lines of a block, and the indent of the next line up to the given one. Gives the
line breaks and the greatest column seen. -/
def takeEmptyLines (indent : Option Nat) : Nat → Nat → Cursor → Option (List Char × Nat × Cursor)
  | 0, most, cur => some ([], most, cur)
  | fuel + 1, most, cur =>
    let within (cur : Cursor) : Bool := indent.all (cur.column < ·)
    let spaces := (cur.rest.takeWhile (· = ' ')).length
    let cur := cur.skip (match indent with
      | none => spaces
      | some n => min spaces (n - cur.column))
    let most := max most cur.column
    if within cur && cur.at? '\t' then none
    else if cur.atBreak then
      let (line, next) := cur.takeBreak
      (takeEmptyLines indent fuel most next).map fun (cs, most, last) => (line ++ cs, most, last)
    else some ([], most, cur)

/-- Takes the lines of a block with a known indent. `pending` is the line break before them, `empty`
the empty lines, and `wasBlank` says whether the line before began with a blank. -/
def takeLines (isLiteral : Bool) (chomping : Chomping) (indent : Nat) :
    Nat → List Char → List Char → Bool → Cursor → Option (List Char × Cursor)
  | 0, _, _, _, cur => some ([], cur)
  | fuel + 1, pending, empty, wasBlank, cur =>
    if cur.column = indent && !cur.atEnd then
      let isBlankLine := cur.atBlank
      let lead :=
        if !isLiteral && pending = ['\n'] && !wasBlank && !isBlankLine then
          (if empty = [] then [' '] else empty)
        else pending ++ empty
      let line := cur.rest.takeWhile fun c => !isBreak c
      let (pending, next) := (cur.skip line.length).takeBreak
      (takeEmptyLines (some indent) next.rest.length 0 next).bind fun (empty, _, next) =>
        (takeLines isLiteral chomping indent fuel pending empty isBlankLine next).map
          fun (cs, last) => (lead ++ line ++ cs, last)
    else
      let tail :=
        match chomping with
        | .strip => []
        | .clip => pending
        | .keep => pending ++ empty
      some (tail, cur)

/-- Takes a block of lines from behind its first character; `parent` is the indent around it, one
less than the least that its lines may have. -/
def takeBlock (isLiteral : Bool) (parent : Int) (cur : Cursor) : Option (List Char × Cursor) :=
  (blockHeader cur).bind fun (chomping, increment, cur) =>
    let cur := skipLineEnd cur
    if !(cur.atBreak || cur.atEnd) then none
    else
      let cur := cur.takeBreak.2
      let indent? := increment.map fun n => parent.toNat + n
      (takeEmptyLines indent? cur.rest.length 0 cur).bind fun (empty, most, next) =>
        let indent := indent?.getD (max (max most (parent + 1).toNat) 1)
        takeLines isLiteral chomping indent (next.rest.length + 1) [] empty false next

end TaggedRows.Configuration
