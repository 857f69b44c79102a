import TaggedRows.Configuration.Token

/-!
# Documents as trees

A document is a tree of texts, lists and mappings. `Node.ofText?` reads a text that holds at most
one document; a text without any holds an empty plain scalar. What an anchor names is put in the
place of every later reference to it.
-/

namespace TaggedRows.Configuration

inductive Node where
  /-- A text; `tag` tells, where a type is named, whether it is that of missing values. -/
  | scalar (text : String) (isPlain : Bool) (tag : Option Bool)
  | sequence (nodes : List Node)
  | mapping (entries : List (Node × Node))

namespace Node

/-- The node where nothing is written. -/
def empty : Node := .scalar "" true none

/-- Gives a scalar the type that is named before it. -/
def withTag (tag : Option Bool) : Node → Node
  | .scalar text isPlain none => .scalar text isPlain tag
  | node => node

/-- Nodes with names, and the tokens behind what has been read. -/
structure Progress where
  anchors : List (String × Node)
  rest : List Token

/-- Marks in front of a node: an anchor and a tag, in either order. -/
def takeMarks : List Token → Option String × Option Bool × List Token
  | .anchor name :: .tag t :: ts => (some name, some t, ts)
  | .tag t :: .anchor name :: ts => (some name, some t, ts)
  | .anchor name :: ts => (some name, none, ts)
  | .tag t :: ts => (none, some t, ts)
  | ts => (none, none, ts)

/-- A list that has been read. -/
def sequenceOf (read : Option (List Node × Progress)) : Option (Node × Progress) :=
  read.map fun (nodes, p) => (.sequence nodes, p)

/-- A mapping that has been read. -/
def mappingOf (read : Option (List (Node × Node) × Progress)) : Option (Node × Progress) :=
  read.map fun (entries, p) => (.mapping entries, p)

/-- One of the tokens stands in front. -/
def standsAt (stops : List Token) (ts : List Token) : Bool :=
  ts.head?.any stops.contains

/-- A node without content, which needs a mark. -/
def bare (name : Option String) (tag : Option Bool) (p : Progress) (ts : List Token) :
    Option (Node × Progress) :=
  if name.isSome || tag.isSome then some (empty, { p with rest := ts }) else none

/-- The tokens behind a comma, which has to stand in front of all elements but the first. -/
def behindComma (isFirst : Bool) : List Token → Option (List Token)
  | .flowEntry :: ts => if isFirst then some (.flowEntry :: ts) else some ts
  | ts => if isFirst then some ts else none

mutual

/-- Reads a node; `inBlock` says whether it may be a block, and `inline` whether a list may stand
at the column of its mapping. -/
def take : Nat → Bool → Bool → Progress → Option (Node × Progress)
  | 0, _, _, _ => none
  | fuel + 1, inBlock, inline, p =>
    match p.rest with
    | .aliasOf name :: ts => (p.anchors.lookup name).map fun node => (node, { p with rest := ts })
    | _ =>
      let (name, tag, ts) := takeMarks p.rest
      (takeContent fuel inBlock inline name tag ts p).map fun (node, p) =>
        let node := node.withTag tag
        match name with
        | some name => (node, { p with anchors := (name, node) :: p.anchors })
        | none => (node, p)

/-- Reads what stands behind the marks of a node. -/
def takeContent : Nat → Bool → Bool → Option String → Option Bool → List Token → Progress →
    Option (Node × Progress)
  | 0, _, _, _, _, _, _ => none
  | fuel + 1, inBlock, inline, name, tag, ts, p =>
    match ts with
    | .scalar text isPlain :: ts => some (.scalar text isPlain none, { p with rest := ts })
    | .flowSequenceStart :: ts => sequenceOf (takeFlowItems fuel true { p with rest := ts })
    | .flowMappingStart :: ts => mappingOf (takeFlowPairs fuel true { p with rest := ts })
    | .blockEntry :: _ =>
      if inline then sequenceOf (takeEntries fuel false { p with rest := ts })
      else bare name tag p ts
    | .blockSequenceStart :: rest =>
      if inBlock then sequenceOf (takeEntries fuel true { p with rest }) else bare name tag p ts
    | .blockMappingStart :: rest =>
      if inBlock then mappingOf (takePairs fuel { p with rest }) else bare name tag p ts
    | _ => bare name tag p ts

/-- Reads a node, or nothing where one of the tokens stands. -/
def takeOr (stops : List Token) : Nat → Bool → Bool → Progress → Option (Node × Progress)
  | 0, _, _, _ => none
  | fuel + 1, inBlock, inline, p =>
    if standsAt stops p.rest then some (empty, p) else take fuel inBlock inline p

/-- The elements of a list of dashes; `isBlock` says whether a token closes it. -/
def takeEntries : Nat → Bool → Progress → Option (List Node × Progress)
  | 0, _, _ => none
  | fuel + 1, isBlock, p =>
    match p.rest with
    | .blockEntry :: ts =>
      let stops :=
        if isBlock then [.blockEntry, .blockEnd] else [.blockEntry, .key, .value, .blockEnd]
      (takeOr stops fuel true false { p with rest := ts }).bind fun (node, p) =>
        (takeEntries fuel isBlock p).map fun (nodes, p) => (node :: nodes, p)
    | .blockEnd :: ts => some ([], if isBlock then { p with rest := ts } else p)
    | _ => if isBlock then none else some ([], p)

/-- The entries of a block of keys and values. -/
def takePairs : Nat → Progress → Option (List (Node × Node) × Progress)
  | 0, _ => none
  | fuel + 1, p =>
    let stops := [.key, .value, .blockEnd]
    match p.rest with
    | .blockEnd :: ts => some ([], { p with rest := ts })
    | .key :: ts =>
      (takeOr stops fuel true true { p with rest := ts }).bind fun (key, p) =>
        (takeValue stops fuel true p).bind fun (value, p) =>
          (takePairs fuel p).map fun (entries, p) => ((key, value) :: entries, p)
    | .value :: _ =>
      (takeValue stops fuel true p).bind fun (value, p) =>
        (takePairs fuel p).map fun (entries, p) => ((empty, value) :: entries, p)
    | _ => none

/-- The value behind a key. -/
def takeValue (stops : List Token) : Nat → Bool → Progress → Option (Node × Progress)
  | 0, _, _ => none
  | fuel + 1, inBlock, p =>
    match p.rest with
    | .value :: ts => takeOr stops fuel inBlock inBlock { p with rest := ts }
    | _ => some (empty, p)

/-- The elements of a list in brackets. An element with a colon is a mapping of one entry. -/
def takeFlowItems : Nat → Bool → Progress → Option (List Node × Progress)
  | 0, _, _ => none
  | fuel + 1, isFirst, p =>
    match p.rest with
    | .flowSequenceEnd :: ts => some ([], { p with rest := ts })
    | ts =>
      (behindComma isFirst ts).bind fun ts =>
        match ts with
        | .flowSequenceEnd :: ts => some ([], { p with rest := ts })
        | .key :: ts =>
          (takeOr [.value, .flowEntry, .flowSequenceEnd] fuel false false
            { p with rest := ts }).bind fun (key, p) =>
              (takeValue [.flowEntry, .flowSequenceEnd] fuel false p).bind fun (value, p) =>
                (takeFlowItems fuel false p).map fun (nodes, p) =>
                  (.mapping [(key, value)] :: nodes, p)
        | ts =>
          (take fuel false false { p with rest := ts }).bind fun (node, p) =>
            (takeFlowItems fuel false p).map fun (nodes, p) => (node :: nodes, p)

/-- The entries of a mapping in brackets. A key without a colon has no value. -/
def takeFlowPairs : Nat → Bool → Progress → Option (List (Node × Node) × Progress)
  | 0, _, _ => none
  | fuel + 1, isFirst, p =>
    match p.rest with
    | .flowMappingEnd :: ts => some ([], { p with rest := ts })
    | ts =>
      (behindComma isFirst ts).bind fun ts =>
        match ts with
        | .flowMappingEnd :: ts => some ([], { p with rest := ts })
        | .key :: ts =>
          (takeOr [.value, .flowEntry, .flowMappingEnd] fuel false false { p with rest := ts }).bind
            fun (key, p) =>
              (takeValue [.flowEntry, .flowMappingEnd] fuel false p).bind fun (value, p) =>
                (takeFlowPairs fuel false p).map fun (entries, p) => ((key, value) :: entries, p)
        | ts =>
          (take fuel false false { p with rest := ts }).bind fun (key, p) =>
            (takeFlowPairs fuel false p).map fun (entries, p) => ((key, empty) :: entries, p)

end

/-! ## Documents -/

/-- Drops the marks behind a document. -/
def skipEnds (ts : List Token) : List Token := ts.dropWhile (· = .documentEnd)

/-- Reads the tokens of at most one document. Directives need a mark behind them. -/
def ofTokens? (ts : List Token) : Option Node :=
  match skipEnds ts with
  | [] => some empty
  | .directive :: ts =>
    match ts.dropWhile (· = .directive) with
    | .documentStart :: ts => content ts
    | _ => none
  | .documentStart :: ts => content ts
  | ts => content ts
where
  content (ts : List Token) : Option Node :=
    let stops := [.directive, .documentStart, .documentEnd]
    if ts = [] then some empty
    else
      (takeOr stops (8 * ts.length + 8) true false ⟨[], ts⟩).bind fun (node, p) =>
        if skipEnds p.rest = [] then some node else none

/-- Reads a text as one document. -/
def ofText? (text : String) : Option Node := (Token.ofText? text).bind ofTokens?

end Node

end TaggedRows.Configuration
