import ReleaseKeeper.Yaml.Scalar
/-!
# Tokens of a YAML text

As the scanner of yaml-rust2 (0.9) reads them. A text is read into tokens one after another. What
begins a mapping is known only when the colon behind its first key is found, so the place of every
token that may be a key is kept, and tokens are put in there later. Indentation begins and ends the
structures that are written in blocks.
-/
namespace ReleaseKeeper.Yaml

inductive Token where
  | versionDirective
  | tagDirective (handle address : String)
  | documentStart
  | documentEnd
  | blockSequenceStart
  | blockMappingStart
  | blockEnd
  | flowSequenceStart
  | flowSequenceEnd
  | flowMappingStart
  | flowMappingEnd
  | blockEntry
  | flowEntry
  | key
  | value
  | alias (name : String)
  | anchor (name : String)
  | tag (handle suffix : String)
  /-- A scalar; a plain one may be something else than a string. -/
  | scalar (isPlain : Bool) (text : String)
deriving DecidableEq, Repr, Inhabited

/-- A token that may turn out to be a key. -/
structure KeyPlace where
  isPossible : Bool := false
  /-- Whether it is an error if it is no key. -/
  isRequired : Bool := false
  number : Nat := 0
  index : Nat := 0
  line : Nat := 0
  column : Nat := 0
deriving Repr, Inhabited

/-- An indentation inside of another one. -/
structure Indent where
  outer : Int
  /-- Whether it is that of a structure, which ends with it. -/
  isBlock : Bool
deriving Repr

/-- `Scanner`: how far a text has been read. -/
structure Lexer where
  cursor : Cursor
  /-- The length of the text. -/
  size : Nat
  /-- The tokens, last one first. -/
  tokens : List Token := []
  count : Nat := 0
  /-- The place of a possible key at each depth of brackets, innermost first. -/
  places : List KeyPlace := [{}]
  allowsKey : Bool := true
  indent : Int := -1
  indents : List Indent := []
  depth : Nat := 0
  /-- Where a colon may follow a key without a blank. -/
  adjacentAt : Nat := 0
  inFlowMapping : Bool := false
  /-- For each open sequence in brackets, whether it is in a mapping without brackets. -/
  singles : List Bool := []

abbrev LexM := StateT Lexer (Except SyntaxError)

namespace LexM

def move (f : Cursor → Cursor) : LexM Unit := modify fun s => { s with cursor := f s.cursor }

def tryMove (f : Cursor → Except SyntaxError Cursor) : LexM Unit := do
  let s ← get
  let cursor ← f s.cursor
  set { s with cursor }

def fail {α : Type} (detail : String) : LexM α := do (← get).cursor.fail detail

def emit (t : Token) : LexM Unit :=
  modify fun s => { s with tokens := t :: s.tokens, count := s.count + 1 }

/-- Puts a token before the one of a number. -/
def insertAt (number : Nat) (t : Token) : LexM Unit :=
  modify fun s =>
    { s with tokens := s.tokens.insertIdx (s.count - number) t, count := s.count + 1 }

def allowKey (allows : Bool) : LexM Unit := modify fun s => { s with allowsKey := allows }

def skipGap : LexM Unit := tryMove Cursor.skipGap

/-! ## Places of keys -/

/-- `save_simple_key`. -/
def saveKey : LexM Unit := modify fun s =>
  if ¬ s.allowsKey then s
  else
    let isRequired := s.depth = 0 && s.indent = s.cursor.column &&
      (s.indents.head?.any (·.isBlock))
    let place := {
      isPossible := true, isRequired, number := s.count, index := s.cursor.index
      line := s.cursor.line, column := s.cursor.column }
    { s with places := place :: s.places.drop 1 }

/-- `remove_simple_key`: the possible key at the present depth. -/
def removeKey : LexM Unit := do
  let s ← get
  match s.places with
  | [] => return ()
  | place :: outer =>
    if place.isPossible ∧ place.isRequired then fail "simple key expected"
    set { s with places := { place with isPossible := false } :: outer }

/-- `stale_simple_keys`: those that are too far back, outside of brackets. -/
def expireKeys : LexM Unit := do
  let s ← get
  if s.depth = 0 then
    let c := s.cursor
    let isStale (p : KeyPlace) : Bool :=
      p.isPossible && (p.line < c.line || p.index + 1024 < c.index)
    if s.places.any fun p => isStale p && p.isRequired then fail "simple key expect ':'"
    set { s with
      places := s.places.map fun p => if isStale p then { p with isPossible := false } else p }

/-! ## Indentation -/

/-- `roll_indent`: begins a structure in a block if the column is further in than what surrounds it.
-/
def rollIndent (column : Nat) (number : Option Nat) (t : Token) : LexM Unit := do
  let s ← get
  if s.depth > 0 then return ()
  let column : Int := column
  let s : Lexer := match s.indents with
    | i :: outer =>
      if s.indent ≤ column ∧ ¬ i.isBlock then { s with indent := i.outer, indents := outer } else s
    | [] => s
  set s
  if s.indent < column then
    set { s with indent := column, indents := ⟨s.indent, true⟩ :: s.indents }
    match number with
    | some n => insertAt n t
    | none => emit t

/-- Ends structures that are further in than a column. -/
def unrollIndents (column : Int) : List Indent → Int → LexM Unit
  | [], indent => modify fun s => { s with indents := [], indent }
  | i :: outer, indent => do
    if indent ≤ column then modify fun s => { s with indents := i :: outer, indent }
    else
      if i.isBlock then emit .blockEnd
      unrollIndents column outer i.outer

/-- `unroll_indent`: ends structures that are further in than a column, outside of brackets. -/
def unrollIndent (column : Int) : LexM Unit := do
  let s ← get
  if s.depth = 0 then unrollIndents column s.indents s.indent

/-- Indents by one column inside of a structure. -/
def rollColumn : LexM Unit := modify fun s =>
  if s.depth = 0 ∧ (s.indents.head?.any (·.isBlock)) then
    { s with indents := ⟨s.indent, false⟩ :: s.indents, indent := s.indent + 1 }
  else s

/-- Drops indentations that belong to no structure. -/
def unrollColumns : LexM Unit := modify fun s =>
  let inner := s.indents.takeWhile fun i => !i.isBlock
  match inner.getLast? with
  | some i => { s with indents := s.indents.drop inner.length, indent := i.outer }
  | none => s

/-! ## Brackets and entries -/

/-- Ends a mapping without brackets inside of a sequence. -/
def endSingle : LexM Unit := do
  let s ← get
  match s.singles with
  | true :: outer =>
    set { s with inFlowMapping := false, singles := false :: outer }
    emit .flowMappingEnd
  | _ => return ()

def openBracket (t : Token) : LexM Unit := do
  saveKey
  rollColumn
  let s ← get
  if 255 ≤ s.depth then fail "recursion limit exceeded"
  set { s with depth := s.depth + 1, places := {} :: s.places }
  allowKey true
  move Cursor.visible
  if t = .flowMappingStart then modify fun s => { s with inFlowMapping := true }
  else modify fun s => { s with singles := false :: s.singles }
  skipGap
  emit t

def closeBracket (t : Token) : LexM Unit := do
  removeKey
  modify fun s =>
    if s.depth = 0 then s else { s with depth := s.depth - 1, places := s.places.drop 1 }
  allowKey false
  if t = .flowSequenceEnd then
    endSingle
    modify fun s => { s with singles := s.singles.drop 1 }
  move Cursor.visible
  skipGap
  modify fun s => if s.depth > 0 then { s with adjacentAt := s.cursor.index } else s
  emit t

def readFlowEntry : LexM Unit := do
  removeKey
  allowKey true
  endSingle
  move Cursor.visible
  skipGap
  emit .flowEntry

def readBlockEntry : LexM Unit := do
  let s ← get
  if s.depth > 0 then fail "'-' is only valid inside a block"
  if ¬ s.allowsKey then fail "block sequence entries are not allowed in this context"
  move Cursor.visible
  rollIndent s.cursor.column none .blockSequenceStart
  let (gap, c) ← (← get).cursor.gap true
  if gap.hasTab ∧ c.peek = '-' ∧ isSpace c.peekNext then
    c.fail "'-' must be followed by a valid YAML whitespace"
  let (_, c) ← c.gap false
  move fun _ => c
  if isBreak c.peek ∨ isFlow c.peek then rollColumn
  removeKey
  allowKey true
  emit .blockEntry

/-! ## Keys and values -/

/-- Moves over blanks, breaks and comments behind a question mark, and tells whether there are any
blanks or breaks. Outside of brackets a new line may begin with a key. -/
def skipKeyGap : Nat → Bool → LexM Bool
  | 0, found => return found
  | fuel + 1, found => do
    let s ← get
    if s.cursor.peek = ' ' then
      move Cursor.blank
      skipKeyGap fuel true
    else if isBreak s.cursor.peek then
      move Cursor.lineBreak
      if s.depth = 0 then allowKey true
      skipKeyGap fuel true
    else if s.cursor.peek = '#' then
      move Cursor.toLineEnd
      skipKeyGap fuel found
    else return found

/-- `fetch_key`, behind a question mark. -/
def readKey : LexM Unit := do
  let s ← get
  if s.depth = 0 then
    if ¬ s.allowsKey then fail "mapping keys are not allowed in this context"
    rollIndent s.cursor.column none .blockMappingStart
  else modify fun s => { s with inFlowMapping := true }
  removeKey
  allowKey (s.depth = 0)
  move Cursor.visible
  if ¬ (← skipKeyGap s.size false) then fail "expected whitespace"
  if (← get).cursor.peek = '\t' then fail "tabs disallowed in this context"
  emit .key

/-- Whether a character counts as a letter; beyond ASCII all from the first letter on do. -/
def isLetter (c : Char) : Bool := c.isAlpha || 0xaa ≤ c.toNat

/-- Refuses a colon with only a tab between it and more structure or a word. -/
def checkAfterColon : LexM Unit := do
  let s ← get
  if s.cursor.peek = '\t' then
    let (gap, c) ← s.cursor.gap true
    set { s with cursor := c }
    if ¬ gap.hasSpace ∧ (c.peek = '-' ∨ isLetter c.peek) then
      fail "':' must be followed by a valid YAML whitespace"

/-- Makes a possible key a key. -/
def confirmKey (place : KeyPlace) (isSingle : Bool) (line : Nat) : LexM Unit := do
  insertAt place.number .key
  if isSingle then
    if place.line < line then fail "illegal placement of ':' indicator"
    insertAt place.number .flowMappingStart
  rollIndent place.column (some place.number) .blockMappingStart
  rollColumn
  modify fun s => { s with places := match s.places with
    | p :: outer => { p with isPossible := false } :: outer
    | [] => [] }
  allowKey false

/-- `fetch_value`, behind a colon. -/
def readValue : LexM Unit := do
  let s ← get
  let place := s.places.headD {}
  let isSingle := !s.singles.isEmpty && !s.inFlowMapping
  if isSingle then modify fun s => { s with singles := true :: s.singles.drop 1 }
  move Cursor.visible
  checkAfterColon
  if place.isPossible then confirmKey place isSingle s.cursor.line
  else
    if isSingle then emit .flowMappingStart
    if s.depth = 0 then
      if ¬ s.allowsKey then fail "mapping values are not allowed in this context"
      rollIndent s.cursor.column none .blockMappingStart
    rollColumn
    allowKey (s.depth = 0)
  emit .value

/-! ## Tags and anchors -/

def uriByte (c : Cursor) : Except SyntaxError (Nat × Cursor) :=
  match c.rest with
  | '%' :: x :: y :: _ =>
    match readNat? 16 [x, y] with
    | some n => .ok (n, c.visibles 3)
    | none => c.fail "while parsing a tag, found an invalid escape sequence"
  | _ => c.fail "while parsing a tag, found an invalid escape sequence"

def uriBytes : Nat → Nat → Cursor → Except SyntaxError (Nat × Cursor)
  | 0, n, c => .ok (n, c)
  | more + 1, n, c => do
    let (byte, d) ← uriByte c
    if byte / 64 ≠ 2 then c.fail "while parsing a tag, found an incorrect trailing UTF-8 byte"
    uriBytes more (n * 256 + byte) d

/-- Reads a character written in bytes behind percent signs; the bytes are taken as its number. -/
def uriEscape (c : Cursor) : Except SyntaxError (Char × Cursor) := do
  let (byte, d) ← uriByte c
  let more? := if byte < 128 then some 0 else if byte / 32 = 6 then some 1
    else if byte / 16 = 14 then some 2 else if byte / 8 = 30 then some 3 else none
  match more? with
  | none => c.fail "while parsing a tag, found an incorrect leading UTF-8 byte"
  | some more =>
    let (n, e) ← uriBytes more byte d
    match charOfNumber? n with
    | some x => return (x, e)
    | none => c.fail "while parsing a tag, found an invalid UTF-8 codepoint"

def uriRun (p : Char → Bool) : Nat → List Char → Cursor → Except SyntaxError (List Char × Cursor)
  | 0, read, c => .ok (read.reverse, c)
  | fuel + 1, read, c => do
    if ¬ p c.peek then return (read.reverse, c)
    if c.peek = '%' then
      let (x, d) ← uriEscape c
      uriRun p fuel (x :: read) d
    else uriRun p fuel (c.peek :: read) c.visible

def tagHandle (inDirective : Bool) (c : Cursor) : Except SyntaxError (List Char × Cursor) := do
  if c.peek ≠ '!' then c.fail "while scanning a tag, did not find expected '!'"
  let (name, d) := c.visible.spanVisible isNameChar
  if d.peek = '!' then return ('!' :: name ++ ['!'], d.visible)
  if inDirective ∧ ¬ name.isEmpty then
    d.fail "while parsing a tag directive, did not find expected '!'"
  return ('!' :: name, d)

/-- Reads a tag that is written out between angle brackets. -/
def verbatimTag (size : Nat) (c : Cursor) : Except SyntaxError (Token × Cursor) := do
  let (suffix, d) ← uriRun isUriChar size [] (c.visibles 2)
  if d.peek ≠ '>' then d.fail "while scanning a verbatim tag, did not find the expected '>'"
  return (.tag "" (.ofList suffix), d.visible)

/-- Reads a tag that is written as a handle and what follows it. -/
def shorthandTag (size : Nat) (c : Cursor) : Except SyntaxError (Token × Cursor) := do
  let (handle, d) ← tagHandle false c
  let isNamed := 2 ≤ handle.length && handle.getLast? = some '!'
  let (suffix, e) ← uriRun isTagChar size [] d
  if isNamed then
    if suffix.isEmpty then e.fail "while parsing a tag, did not find expected tag URI"
    return (.tag (.ofList handle) (.ofList suffix), e)
  match handle.drop 1 ++ suffix with
  | [] => return (.tag "" "!", e)
  | suffix => return (.tag "!" (.ofList suffix), e)

def readTag : LexM Unit := do
  saveKey
  allowKey false
  let s ← get
  let (t, c) ← if s.cursor.peekNext = '<' then verbatimTag s.size s.cursor
    else shorthandTag s.size s.cursor
  if ¬ (isSpace c.peek ∨ (s.depth > 0 ∧ isFlow c.peek)) then
    c.fail "while scanning a tag, did not find expected whitespace or line break"
  set { s with cursor := c }
  emit t

def readAnchor (token : String → Token) : LexM Unit := do
  saveKey
  allowKey false
  let (name, c) := (← get).cursor.visible.spanVisible isAnchorChar
  if name.isEmpty then
    c.fail
      "while scanning an anchor or alias, did not find expected alphabetic or numeric character"
  move fun _ => c
  emit (token (.ofList name))

/-! ## Directives and documents -/

def versionNumber (c : Cursor) : Except SyntaxError Cursor :=
  let (digits, d) := c.spanVisible Char.isDigit
  if digits.isEmpty then d.fail "did not find expected version number"
  else if 9 < digits.length then d.fail "found extremely long version number"
  else .ok d

def versionDirective (c : Cursor) : Except SyntaxError (Token × Cursor) := do
  let d ← versionNumber c.blanks
  if d.peek ≠ '.' then d.fail "did not find expected digit or '.' character"
  return (.versionDirective, ← versionNumber d.visible)

/-- Reads the first character of the address of a tag directive. -/
def tagAddressHead (c : Cursor) : Except SyntaxError (Char × Cursor) :=
  if c.peek = '!' then .ok ('!', c.visible)
  else if ¬ isTagChar c.peek then c.fail "invalid global tag character"
  else if c.peek = '%' then uriEscape c
  else .ok (c.peek, c.visible)

def tagDirective (size : Nat) (c : Cursor) : Except SyntaxError (Token × Cursor) := do
  let (handle, d) ← tagHandle true c.blanks
  let (first, e) ← tagAddressHead d.blanks
  let (address, f) ← uriRun isUriChar size [first] e
  if ¬ isSpace f.peek then f.fail "did not find expected whitespace or line break"
  return (.tagDirective (.ofList handle) (.ofList address), f)

/-- Reads a directive behind its percent sign. -/
def directive (size : Nat) (c : Cursor) : Except SyntaxError (Token × Cursor) := do
  let (name, d) := c.spanVisible isNameChar
  if name.isEmpty then d.fail "could not find expected directive name"
  if ¬ isSpace d.peek then d.fail "found unexpected non-alphabetical character"
  if name = "YAML".toList then versionDirective d
  else if name = "TAG".toList then tagDirective size d
  else return (.tagDirective "" "", d.toLineEnd)

def readDirective : LexM Unit := do
  unrollIndent (-1)
  removeKey
  allowKey false
  let s ← get
  let (t, c) ← directive s.size s.cursor.visible
  let c ← c.skipGap
  if ¬ isBreakOrEnd c.peek then
    c.fail "while scanning a directive, did not find expected comment or line break"
  set { s with cursor := if isBreak c.peek then c.lineBreak else c }
  emit t

def readDocumentMark (t : Token) : LexM Unit := do
  unrollIndent (-1)
  removeKey
  allowKey false
  move (Cursor.visibles 3)
  emit t

/-- Reads the mark that ends a document, behind which nothing may stand. -/
def readDocumentEnd : LexM Unit := do
  readDocumentMark .documentEnd
  skipGap
  if ¬ isBreakOrEnd (← get).cursor.peek then fail "invalid content after document end marker"

/-! ## Scalars -/

/-- Reads a plain scalar, behind which a key may begin a line. -/
def readPlain : LexM Unit := do
  saveKey
  allowKey false
  unrollColumns
  let s ← get
  let (text, c) ← plain (s.depth > 0) s.indent s.size s.cursor
  set { s with cursor := c, allowsKey := s.allowsKey || c.isFresh }
  emit (.scalar true text)

def readBlock (isLiteral : Bool) : LexM Unit := do
  saveKey
  allowKey true
  unrollColumns
  let s ← get
  let (text, c) ← block isLiteral s.indent s.size s.cursor
  set { s with cursor := c }
  emit (.scalar false text)

/-- Moves to the next token: over blanks, breaks and comments. Tabs do not indent blocks. Outside of
brackets a new line may begin with a key. -/
def skipToToken : Nat → LexM Unit
  | 0 => return ()
  | fuel + 1 => do
    let s ← get
    let c := s.cursor
    if c.peek = '\t' ∧ ¬ s.indents.isEmpty ∧ c.isFresh ∧ c.column < s.indent then
      skipGap
      if ¬ isBreakOrEnd (← get).cursor.peek then
        fail "tabs disallowed within this context (block indentation)"
      skipToToken fuel
    else if isBlank c.peek then
      move Cursor.blank
      skipToToken fuel
    else if isBreak c.peek then
      move Cursor.lineBreak
      if s.depth = 0 then allowKey true
      skipToToken fuel
    else if c.peek = '#' then
      move Cursor.toLineEnd
      skipToToken fuel
    else return ()

/-- Reads a quoted scalar, behind which a colon may follow without a blank. -/
def readQuoted (quote : Char) : LexM Unit := do
  saveKey
  allowKey false
  let s ← get
  let (text, c) ← quotedScalar quote (s.depth > 0) s.indent s.size s.cursor
  set { s with cursor := c }
  skipToToken s.size
  modify fun s => { s with adjacentAt := s.cursor.index }
  emit (.scalar false text)

/-! ## All tokens -/

/-- Ends the text: no key may be outstanding, and all structures end. -/
def finish : LexM Unit := do
  let s ← get
  if s.places.any fun p => p.isPossible && p.isRequired then fail "simple key expected"
  unrollIndent (-1)

/-- Whether a colon ends a key here. -/
def isValueMark (s : Lexer) : Bool :=
  let next := s.cursor.peekNext
  isSpace next || (s.depth > 0 && (isFlow next || s.cursor.index = s.adjacentAt))

/-- `fetch_next_token`. -/
def readToken : LexM Unit := do
  let s ← get
  let c := s.cursor
  if c.column < s.indent then fail "invalid indentation"
  let first := c.peek
  if first = '[' then openBracket .flowSequenceStart
  else if first = '\x7b' then openBracket .flowMappingStart
  else if first = ']' then closeBracket .flowSequenceEnd
  else if first = '\x7d' then closeBracket .flowMappingEnd
  else if first = ',' then readFlowEntry
  else if first = '-' ∧ isSpace c.peekNext then readBlockEntry
  else if first = '?' ∧ isSpace c.peekNext then readKey
  else if first = ':' ∧ isValueMark s then readValue
  else if first = '*' then readAnchor .alias
  else if first = '&' then readAnchor .anchor
  else if first = '!' then readTag
  else if (first = '|' ∨ first = '>') ∧ s.depth = 0 then readBlock (first = '|')
  else if first = '\'' ∨ first = '"' then readQuoted first
  else if first = '%' ∨ first = '@' ∨ first = '\u0060' then
    fail s!"unexpected character: {first}"
  else readPlain

def readTokens : Nat → LexM Unit
  | 0 => return ()
  | fuel + 1 => do
    skipToToken (← get).size
    expireKeys
    let c := (← get).cursor
    unrollIndent c.column
    if c.peek = endMark then finish
    else
      if c.column = 0 ∧ c.peek = '%' then readDirective
      else if c.column = 0 ∧ c.isDocumentStart then readDocumentMark .documentStart
      else if c.column = 0 ∧ c.isDocumentEnd then readDocumentEnd
      else readToken
      readTokens fuel

end LexM

def tokens (text : String) : Except SyntaxError (List Token) := do
  let cursor := Cursor.start text
  let size := cursor.rest.length + 2
  let (_, s) ← (LexM.readTokens size).run { cursor, size }
  return s.tokens.reverse

end ReleaseKeeper.Yaml
