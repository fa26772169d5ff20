import ReleaseKeeper.Yaml.Token
/-!
# Nodes of a YAML text

As the parser and the loader of yaml-rust2 (0.9) build them. A document is one node: a scalar, a
sequence or a mapping. What a plain scalar stands for is told by its form or its tag; one that does
not fit its tag is no value. An alias stands for the node that was anchored last under its name. Two
keys of a mapping are never the same.
-/
namespace ReleaseKeeper.Yaml

/-- A part of a document. -/
inductive Node where
  | null
  | bool (b : Bool)
  | int (n : Int)
  /-- A floating point number, as it is written. -/
  | real (text : String)
  | str (s : String)
  | seq (items : List Node)
  | map (entries : List (Node × Node))
  /-- What does not fit its tag, or refers to what is around it. -/
  | bad
deriving Repr, Inhabited

/-! ## Scalars -/

def numberWords : List String := [
  ".inf", ".Inf", ".INF", "+.inf", "+.Inf", "+.INF", "-.inf", "-.Inf", "-.INF",
  ".nan", "NaN", ".NAN"]

/-- Whether a text is written like a floating point number. -/
def isReal (text : String) : Bool :=
  numberWords.contains text || (readBinary64? text.toList).isSome

def isNull (text : String) : Bool := text = "~" || text = "null"

def bool? (text : String) : Option Bool :=
  if text = "true" then some true else if text = "false" then some false else none

def int? (text : String) : Option Int := readInt64? 10 text.toList

/-- The whole number behind a sign that tells its base, or behind a plus sign. -/
def prefixedInt? (text : String) : Option Int :=
  match text.toList with
  | '0' :: 'x' :: cs => readInt64? 16 cs
  | '0' :: 'o' :: cs => readInt64? 8 cs
  | '+' :: cs => readInt64? 10 cs
  | _ => none

namespace Node

def ofPlain (text : String) : Node :=
  match prefixedInt? text with
  | some n => .int n
  | none =>
    if isNull text then .null
    else
      match bool? text, int? text with
      | some b, _ => .bool b
      | none, some n => .int n
      | none, none => if isReal text then .real text else .str text

/-- Where the tags of the core schema live. -/
def coreAddress : String := "tag:yaml.org,2002:"

def ofCore (suffix text : String) : Node :=
  match suffix with
  | "bool" => ((bool? text).map Node.bool).getD .bad
  | "int" => ((int? text).map Node.int).getD .bad
  | "float" => if isReal text then .real text else .bad
  | "null" => if isNull text then .null else .bad
  | _ => .str text

def ofScalar (isPlain : Bool) (tag : Option (String × String)) (text : String) : Node :=
  if ¬ isPlain then .str text
  else
    match tag with
    | none => ofPlain text
    | some (address, suffix) => if address = coreAddress then ofCore suffix text else .str text

/-! ## Mappings -/

mutual

def same : Node → Node → Bool
  | .null, .null => true
  | .bool a, .bool b => a == b
  | .int a, .int b => a == b
  | .real a, .real b => a == b
  | .str a, .str b => a == b
  | .seq a, .seq b => sameItems a b
  | .map a, .map b => sameEntries a b
  | .bad, .bad => true
  | _, _ => false
termination_by structural x => x

def sameItems : List Node → List Node → Bool
  | [], [] => true
  | a :: as, b :: bs => a.same b && sameItems as bs
  | _, _ => false
termination_by structural x => x

def sameEntries : List (Node × Node) → List (Node × Node) → Bool
  | [], [] => true
  | (j, a) :: as, (k, b) :: bs => j.same k && a.same b && sameEntries as bs
  | _, _ => false
termination_by structural x => x

end

def isBad : Node → Bool
  | bad => true
  | _ => false

/-- The entries of a mapping out of its keys and values in order, `none` if two keys are the same. A
key that is no value leaves its place to the node behind it. -/
def pair? (entries : List (Node × Node)) : Option Node → List Node → Option (List (Node × Node))
  | _, [] => some entries.reverse
  | none, x :: rest => pair? entries (if x.isBad then none else some x) rest
  | some key, x :: rest =>
    if entries.any fun e => e.1.same key then none else pair? ((key, x) :: entries) none rest

end Node

/-! ## Documents -/

/-- What is known while tokens are read. -/
structure Reading where
  tokens : List Token
  /-- The number of the anchor that was set last under a name. -/
  anchors : List (String × Nat) := []
  /-- The nodes that are complete, under the numbers of their anchors. -/
  anchored : List (Nat × Node) := []
  count : Nat := 0
  /-- The addresses that tag handles stand for. -/
  handles : List (String × String) := []

abbrev ReadM := StateT Reading (Except String)

namespace ReadM

def peek? : ReadM (Option Token) := return (← get).tokens.head?

def skip : ReadM Unit := modify fun s => { s with tokens := s.tokens.drop 1 }

/-- Whether the next token is one of some tokens; the end of the text counts as none. -/
def nextIs (ts : List Token) : ReadM Bool := return (← peek?).any ts.contains

/-- What a tag stands for: an address and what follows it. -/
def resolve (handle suffix : String) : ReadM (String × String) := do
  match (← get).handles.lookup handle with
  | some address => return (address, suffix)
  | none =>
    if handle = "!!" then return (Node.coreAddress, suffix)
    if 2 ≤ handle.length ∧ handle.endsWith "!" then throw "the handle wasn't declared"
    return (handle, suffix)

/-- Sets an anchor and answers with its number. -/
def setAnchor (name : String) : ReadM Nat := do
  let n := (← get).count + 1
  modify fun s => { s with anchors := (name, n) :: s.anchors, count := n }
  return n

/-- Keeps a complete node for the aliases of its anchor. -/
def keep (anchor : Option Nat) (x : Node) : ReadM Node := do
  if let some n := anchor then modify fun s => { s with anchored := (n, x) :: s.anchored }
  return x

def anchor? : ReadM (Option Nat) := do
  match ← peek? with
  | some (.anchor name) =>
    skip
    return some (← setAnchor name)
  | _ => return none

def tag? : ReadM (Option (String × String)) := do
  match ← peek? with
  | some (.tag handle suffix) =>
    skip
    return some (← resolve handle suffix)
  | _ => return none

def properties : ReadM (Option Nat × Option (String × String)) := do
  match ← anchor? with
  | some n => return (some n, ← tag?)
  | none =>
    let tag ← tag?
    if tag.isSome then return (← anchor?, tag) else return (none, tag)

/-- The node that an alias stands for. -/
def ofAlias (name : String) : ReadM Node := do
  let s ← get
  match s.anchors.lookup name with
  | none => throw "while parsing node, found unknown anchor"
  | some n => return (s.anchored.lookup n).getD .bad

def mapping (flat : List Node) : ReadM Node :=
  match Node.pair? [] none flat with
  | some entries => return .map entries
  | none => throw "duplicated key in hash"

mutual

def node (inBlock allowsEntries : Bool) : Nat → ReadM Node
  | 0 => throw "recursion limit exceeded"
  | fuel + 1 => do
    match ← peek? with
    | some (.alias name) =>
      skip
      ofAlias name
    | _ =>
      let (anchor, tag) ← properties
      match ← peek? with
      | some (.scalar isPlain text) =>
        skip
        keep anchor (.ofScalar isPlain tag text)
      | some .flowSequenceStart =>
        skip
        keep anchor (.seq (← flowItems true fuel))
      | some .flowMappingStart =>
        skip
        keep anchor (← mapping (← flowEntries true fuel))
      | t =>
        if t = some .blockEntry ∧ allowsEntries then keep anchor (.seq (← entries fuel))
        else if t = some .blockSequenceStart ∧ inBlock then
          skip
          keep anchor (.seq (← blockItems fuel))
        else if t = some .blockMappingStart ∧ inBlock then
          skip
          keep anchor (← mapping (← blockEntries fuel))
        else if anchor.isSome ∨ tag.isSome then keep anchor (.ofScalar true tag "")
        else throw "while parsing a node, did not find expected content"

/-- Reads a node, unless one of some tokens stands here instead of it. -/
def nodeOr (ts : List Token) (inBlock allowsEntries : Bool) : Nat → ReadM Node
  | 0 => throw "recursion limit exceeded"
  | fuel + 1 => do if ← nextIs ts then return .null else node inBlock allowsEntries fuel

/-- Reads the items of a sequence in a block. -/
def blockItems : Nat → ReadM (List Node)
  | 0 => throw "recursion limit exceeded"
  | fuel + 1 => do
    match ← peek? with
    | some .blockEnd =>
      skip
      return []
    | some .blockEntry =>
      skip
      let x ← nodeOr [.blockEntry, .blockEnd] true false fuel
      return x :: (← blockItems fuel)
    | _ => throw "while parsing a block collection, did not find expected '-' indicator"

/-- Reads the items of a sequence that is not indented. -/
def entries : Nat → ReadM (List Node)
  | 0 => throw "recursion limit exceeded"
  | fuel + 1 => do
    if ¬ (← nextIs [.blockEntry]) then return []
    skip
    let x ← nodeOr [.blockEntry, .key, .value, .blockEnd] true false fuel
    return x :: (← entries fuel)

/-- Reads the keys and values of a mapping in a block. -/
def blockEntries : Nat → ReadM (List Node)
  | 0 => throw "recursion limit exceeded"
  | fuel + 1 => do
    match ← peek? with
    | some .blockEnd =>
      skip
      return []
    | some .key =>
      skip
      let key ← nodeOr [.key, .value, .blockEnd] true true fuel
      let value ← blockValue fuel
      return key :: value :: (← blockEntries fuel)
    | some .value =>
      let value ← blockValue fuel
      return .null :: value :: (← blockEntries fuel)
    | _ => throw "while parsing a block mapping, did not find expected key"

/-- Reads the value behind a key in a block, if there is one. -/
def blockValue : Nat → ReadM Node
  | 0 => throw "recursion limit exceeded"
  | fuel + 1 => do
    if ¬ (← nextIs [.value]) then return .null
    skip
    nodeOr [.key, .value, .blockEnd] true true fuel

/-- Reads the items of a sequence between brackets. -/
def flowItems (isFirst : Bool) : Nat → ReadM (List Node)
  | 0 => throw "recursion limit exceeded"
  | fuel + 1 => do
    if ¬ isFirst ∧ ¬ (← nextIs [.flowSequenceEnd]) then
      if ← nextIs [.flowEntry] then skip
      else throw "while parsing a flow sequence, expected ',' or ']'"
    match ← peek? with
    | some .flowSequenceEnd =>
      skip
      return []
    | some .key =>
      skip
      let x ← flowSingle fuel
      return x :: (← flowItems false fuel)
    | _ =>
      let x ← node false false fuel
      return x :: (← flowItems false fuel)

/-- Reads a mapping of one entry inside of a sequence between brackets. -/
def flowSingle : Nat → ReadM Node
  | 0 => throw "recursion limit exceeded"
  | fuel + 1 => do
    let isEmpty ← nextIs [.value, .flowEntry, .flowSequenceEnd]
    let key ← if isEmpty then (do skip; return .null) else node false false fuel
    if ← nextIs [.value] then
      skip
      mapping [key, ← nodeOr [.flowEntry, .flowSequenceEnd] false false fuel]
    else mapping [key, .null]

/-- Reads the keys and values of a mapping between brackets. -/
def flowEntries (isFirst : Bool) : Nat → ReadM (List Node)
  | 0 => throw "recursion limit exceeded"
  | fuel + 1 => do
    if ¬ isFirst ∧ ¬ (← nextIs [.flowMappingEnd]) then
      if ← nextIs [.flowEntry] then skip
      else throw "while parsing a flow mapping, did not find expected ',' or '\x7d'"
    match ← peek? with
    | some .flowMappingEnd =>
      skip
      return []
    | some .key =>
      skip
      let key ← nodeOr [.value, .flowEntry, .flowMappingEnd] false false fuel
      let value ← flowValue fuel
      return key :: value :: (← flowEntries false fuel)
    | some .value =>
      let value ← flowValue fuel
      return .null :: value :: (← flowEntries false fuel)
    | _ =>
      let key ← node false false fuel
      return key :: .null :: (← flowEntries false fuel)

/-- Reads the value behind a key between brackets, if there is one. -/
def flowValue : Nat → ReadM Node
  | 0 => throw "recursion limit exceeded"
  | fuel + 1 => do
    if ¬ (← nextIs [.value]) then return .null
    skip
    nodeOr [.flowEntry, .flowMappingEnd] false false fuel

end

/-- Reads the directives before a document; only the last of them counts. -/
def directives : Nat → Bool → ReadM Unit
  | 0, _ => return ()
  | fuel + 1, hasVersion => do
    match ← peek? with
    | some .versionDirective =>
      if hasVersion then throw "duplicate version directive"
      modify fun s => { s with handles := [] }
      skip
      directives fuel true
    | some (.tagDirective handle address) =>
      modify fun s => { s with handles := [(handle, address)] }
      skip
      directives fuel hasVersion
    | _ => return ()

/-- Whether a directive comes next. -/
def atDirective : ReadM Bool := do
  match ← peek? with
  | some .versionDirective | some (.tagDirective ..) => return true
  | _ => return false

def skipDocumentEnds : ReadM Unit :=
  modify fun s => { s with tokens := s.tokens.dropWhile (· = .documentEnd) }

/-- Reads the node of a document behind the mark that begins it. -/
def content (fuel : Nat) : ReadM Node := do
  if (← peek?).isNone ∨ (← atDirective) ∨ (← nextIs [.documentStart, .documentEnd]) then
    return .null
  else node true false fuel

/-- Reads one document. One that does not begin with a mark stands at the beginning of the text or
behind a mark that ends another. -/
def document (mayBeBare : Bool) (fuel : Nat) : ReadM Node := do
  modify fun s => { s with anchors := [] }
  if mayBeBare ∧ ¬ (← atDirective) ∧ ¬ (← nextIs [.documentStart]) then node true false fuel
  else
    directives fuel false
    if ← nextIs [.documentStart] then
      skip
      content fuel
    else throw "did not find expected <document start>"

def documents (size : Nat) : Nat → Bool → ReadM (List Node)
  | 0, _ => throw "recursion limit exceeded"
  | fuel + 1, mayBeBare => do
    skipDocumentEnds
    if (← peek?).isNone then return []
    let x ← document mayBeBare size
    modify fun s => { s with handles := [] }
    let isEnded ← nextIs [.documentEnd]
    if ¬ isEnded ∧ (← atDirective) then
      throw "missing explicit document end marker before directive"
    return x :: (← documents size fuel isEnded)

end ReadM

def documentsOf (ts : List Token) : Except String (List Node) :=
  (ReadM.documents (3 * ts.length + 8) (ts.length + 2) true).run' { tokens := ts }

end ReleaseKeeper.Yaml
