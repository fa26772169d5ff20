import ReleaseKeeper.Decimal.Numeral
import ReleaseKeeper.Yaml.Cursor
/-!
# Scalars of a YAML text

As the scanner of yaml-rust2 (0.9) reads them. A scalar is plain, quoted, or a block. Where a plain
or quoted scalar goes on in another line, the break is folded: a single one becomes a space, and of
more the first is dropped. A block keeps its breaks or folds those between lines that begin with a
visible character.
-/
namespace ReleaseKeeper.Yaml

/-! ## Folding -/

/-- The text read so far, last character first, with the blanks and breaks behind it. -/
structure Gathered where
  text : List Char := []
  blanks : List Char := []
  /-- Whether there was a break. -/
  isBroken : Bool := false
  /-- The number of breaks behind the first. -/
  breaks : Nat := 0

namespace Gathered

def push (c : Char) (g : Gathered) : Gathered := { g with text := c :: g.text }

def keepBlanks (g : Gathered) : Gathered := { g with text := g.blanks ++ g.text, blanks := [] }

def foldBreaks (g : Gathered) : Gathered :=
  let folded := if g.isBroken ∧ g.breaks = 0 then [' '] else List.replicate g.breaks '\n'
  { g with text := folded ++ g.text, isBroken := false, breaks := 0 }

/-- Notes the first break, which drops the blanks before it. -/
def firstBreak (g : Gathered) : Gathered := { g with blanks := [], isBroken := true }

def nextBreak (g : Gathered) : Gathered := { g with breaks := g.breaks + 1 }

def result (g : Gathered) : String := .ofList g.text.reverse

end Gathered

/-! ## Plain scalars -/

/-- Whether the next character, which is no blank, belongs to a plain scalar. -/
def continuesPlain (inFlow : Bool) (c : Cursor) : Bool :=
  if c.peek = ':' then !(isSpace c.peekNext || (inFlow && isFlow c.peekNext))
  else !(inFlow && isFlow c.peek)

/-- Reads characters of a plain scalar up to a blank or a mark. -/
def plainRun (inFlow : Bool) : Nat → Gathered → Cursor → Gathered × Cursor
  | 0, g, c => (g, c)
  | fuel + 1, g, c =>
    if !isSpace c.peek && continuesPlain inFlow c then
      plainRun inFlow fuel (g.push c.peek) c.visible
    else (g, c)

/-- Reads blanks and breaks of a plain scalar. Tabs do not indent, but may stand in empty lines. -/
def plainGap (indent : Int) : Nat → Gathered → Cursor → Except SyntaxError (Gathered × Cursor)
  | 0, g, c => .ok (g, c)
  | fuel + 1, g, c => do
    if isBlank c.peek then
      if ¬ c.isFresh then
        plainGap indent fuel { g with blanks := c.peek :: g.blanks } c.blank
      else if c.column < indent ∧ c.peek = '\t' then
        let d ← c.skipGap
        if ¬ isBreakOrEnd d.peek then d.fail "while scanning a plain scalar, found a tab"
        plainGap indent fuel g d
      else plainGap indent fuel g c.blank
    else if isBreak c.peek then
      plainGap indent fuel (if c.isFresh then g.nextBreak else g.firstBreak) c.lineBreak
    else return (g, c)

/-- `scan_plain_scalar`: further lines are indented. -/
def plainLines (inFlow : Bool) (indent : Int) :
    Nat → Gathered → Cursor → Except SyntaxError (Gathered × Cursor)
  | 0, g, c => .ok (g, c)
  | fuel + 1, g, c => do
    if (c.isFresh && c.isDocumentMark) || c.peek = '#' then return (g, c)
    if inFlow && c.peek = '-' && isFlow c.peekNext then
      c.fail "plain scalar cannot start with '-' followed by ,[]\x7b\x7d"
    let (g, c) :=
      if !isSpace c.peek && continuesPlain inFlow c then
        plainRun inFlow fuel (if c.isFresh then g.foldBreaks else g.keepBlanks) c
      else (g, c)
    if ¬ (isBlank c.peek ∨ isBreak c.peek) then return (g, c)
    let (g, c) ← plainGap indent fuel g c
    if ¬ inFlow ∧ c.column < indent then return (g, c)
    plainLines inFlow indent fuel g c

def plain (inFlow : Bool) (indent : Int) (size : Nat) (c : Cursor) :
    Except SyntaxError (String × Cursor) := do
  if inFlow ∧ c.column < indent + 1 then c.fail "invalid indentation in flow construct"
  let (g, d) ← plainLines inFlow (indent + 1) size {} c
  if g.text.isEmpty then d.fail "unexpected end of plain scalar"
  return (g.result, d)

/-! ## Quoted scalars -/

/-- What an escape of one letter stands for. -/
def simpleEscapes : List (Char × Char) := [
  ('0', '\x00'), ('a', '\x07'), ('b', '\x08'), ('t', '\t'), ('\t', '\t'), ('n', '\n'),
  ('v', '\x0b'), ('f', '\x0c'), ('r', '\r'), ('e', '\x1b'), (' ', ' '), ('"', '"'), ('/', '/'),
  ('\\', '\\'), ('N', '\u0085'), ('_', '\u00a0'), ('L', '\u2028'), ('P', '\u2029')]

/-- The letters of escapes by number, with how many digits follow. -/
def numericEscapes : List (Char × Nat) := [('x', 2), ('u', 4), ('U', 8)]

def charOfNumber? (n : Nat) : Option Char :=
  if h : n.isValidChar then some (.ofNatAux n h) else none

def escape (c : Cursor) : Except SyntaxError (Char × Cursor) :=
  match simpleEscapes.lookup c.peekNext, numericEscapes.lookup c.peekNext with
  | some x, _ => .ok (x, c.visibles 2)
  | none, some digits =>
    let d := c.visibles 2
    let cs := d.rest.take digits
    match if cs.length = digits then readNat? 16 cs else none with
    | none => d.fail "did not find expected hexadecimal number"
    | some n =>
      match charOfNumber? n with
      | some x => .ok (x, d.visibles digits)
      | none => d.fail "found invalid Unicode character escape code"
  | none, none => c.fail "while parsing a quoted scalar, found unknown escape character"

/-- Reads characters of a quoted scalar up to a blank, a break or the quote; an escaped break counts
as the beginning of a line. -/
def quotedRun (quote : Char) :
    Nat → Gathered → Cursor → Except SyntaxError (Bool × Gathered × Cursor)
  | 0, g, c => .ok (false, g, c)
  | fuel + 1, g, c => do
    if isSpace c.peek then return (false, g, c)
    if c.peek = quote then
      if quote = '\'' ∧ c.peekNext = '\'' then quotedRun quote fuel (g.push quote) (c.visibles 2)
      else return (false, g, c)
    else if c.peek = '\\' ∧ quote = '"' then
      if isBreak c.peekNext then return (true, g, c.visible.lineBreak)
      let (x, d) ← escape c
      quotedRun quote fuel (g.push x) d
    else quotedRun quote fuel (g.push c.peek) c.visible

/-- Reads blanks and breaks of a quoted scalar. Tabs do not indent. -/
def quotedGap (indent : Int) :
    Nat → Bool → Gathered → Cursor → Except SyntaxError (Bool × Gathered × Cursor)
  | 0, atStart, g, c => .ok (atStart, g, c)
  | fuel + 1, atStart, g, c => do
    if isBlank c.peek then
      if ¬ atStart then quotedGap indent fuel false { g with blanks := c.peek :: g.blanks } c.blank
      else if c.peek = '\t' ∧ c.column < indent then c.fail "tab cannot be used as indentation"
      else quotedGap indent fuel true g c.blank
    else if isBreak c.peek then
      quotedGap indent fuel true (if atStart then g.nextBreak else g.firstBreak) c.lineBreak
    else return (atStart, g, c)

/-- `scan_flow_scalar`, up to the quote that ends it. -/
def quotedLines (quote : Char) (indent : Int) :
    Nat → Gathered → Cursor → Except SyntaxError (Gathered × Cursor)
  | 0, _, c => c.fail "while scanning a quoted scalar, found unexpected end of stream"
  | fuel + 1, g, c => do
    if c.column = 0 ∧ c.isDocumentMark then
      c.fail "while scanning a quoted scalar, found unexpected document indicator"
    if c.peek = endMark then
      c.fail "while scanning a quoted scalar, found unexpected end of stream"
    if c.column < indent then c.fail "invalid indentation in quoted scalar"
    let (atStart, g, c) ← quotedRun quote fuel g c
    if c.peek = quote then return (g, c)
    let (atStart, g, c) ← quotedGap indent fuel atStart g c
    quotedLines quote indent fuel (if atStart then g.foldBreaks else g.keepBlanks) c

/-- Reads a quoted scalar with what may follow it on its line. -/
def quotedScalar (quote : Char) (inFlow : Bool) (indent : Int) (size : Nat) (c : Cursor) :
    Except SyntaxError (String × Cursor) := do
  let (g, d) ← quotedLines quote indent size {} c.visible
  let e ← d.visible.skipGap
  let next := e.peek
  let mayFollow := isBreakOrEnd next || (inFlow && [',', '\x7d', ']', ':'].contains next) ||
    (!inFlow && next = ':' && c.line = e.line)
  if mayFollow then return (g.result, e)
  else e.fail "invalid trailing content after quoted scalar"

/-! ## Blocks -/

/-- What becomes of the breaks at the end of a block. -/
inductive Chomping where
  | strip
  | clip
  | keep
deriving DecidableEq

/-- How a block is written: its breaks at the end, and its indentation if that is given. -/
structure BlockHeader where
  chomping : Chomping := .clip
  increment : Nat := 0

def chomping? (c : Char) : Option Chomping :=
  if c = '+' then some .keep else if c = '-' then some .strip else none

/-- Reads a digit that gives the indentation, which is not zero. -/
def increment (c : Cursor) : Except SyntaxError (Nat × Cursor) :=
  if ¬ c.peek.isDigit then .ok (0, c)
  else if c.peek = '0' then
    c.fail "while scanning a block scalar, found an indentation indicator equal to 0"
  else .ok (c.peek.toNat - '0'.toNat, c.visible)

/-- Reads the marks behind the one that begins a block, in either order. -/
def blockHeader (c : Cursor) : Except SyntaxError (BlockHeader × Cursor) := do
  match chomping? c.peek with
  | some chomping =>
    let (increment, c) ← increment c.visible
    return ({ chomping, increment }, c)
  | none =>
    let (n, d) ← increment c
    match if n = 0 then none else chomping? d.peek with
    | some chomping => return ({ chomping, increment := n }, d.visible)
    | none => return ({ increment := n }, d)

/-- Moves over empty lines and the indentation of the next, and tells the number of breaks. -/
def blockIndent (indent : Nat) : Nat → Nat → Cursor → Nat × Cursor
  | 0, breaks, c => (breaks, c)
  | fuel + 1, breaks, c =>
    let c := ((c.rest.take (indent - c.column)).takeWhile (· = ' ')).foldl (fun c _ => c.blank) c
    if isBreak c.peek then blockIndent indent fuel (breaks + 1) c.lineBreak else (breaks, c)

/-- Moves over empty lines to the first that is not, and tells the number of breaks and the greatest
indentation. -/
def blockFirstIndent : Nat → Nat → Nat → Cursor → Nat × Nat × Cursor
  | 0, greatest, breaks, c => (greatest, breaks, c)
  | fuel + 1, greatest, breaks, c =>
    let c := c.spaces
    let greatest := max greatest c.column
    if isBreak c.peek then blockFirstIndent fuel greatest (breaks + 1) c.lineBreak
    else (greatest, breaks, c)

/-- What was read of a block: its text, last character first, and the breaks behind it. -/
structure BlockText where
  text : List Char := []
  isBroken : Bool := false
  breaks : Nat := 0
  /-- Whether the last line begins with a blank. -/
  isMoreIndented : Bool := false

namespace BlockText

/-- Adds the breaks before a line that begins with a blank or does not. -/
def join (isLiteral beginsBlank : Bool) (b : BlockText) : BlockText :=
  let folds := !isLiteral && b.isBroken && !b.isMoreIndented && !beginsBlank
  let first := if folds then (if b.breaks = 0 then [' '] else [])
    else if b.isBroken then ['\n'] else []
  { text := List.replicate b.breaks '\n' ++ first ++ b.text, isMoreIndented := beginsBlank }

/-- Adds the breaks at the end as the chomping says; a last line that the end of the text breaks off
counts as broken. -/
def finish (chomping : Chomping) (endsOpen : Bool) (b : BlockText) : List Char :=
  let text := if chomping = .strip then b.text
    else (if endsOpen then ['\n'] else []) ++ (if b.isBroken then ['\n'] else []) ++ b.text
  if chomping = .keep then List.replicate b.breaks '\n' ++ text else text

end BlockText

def blockLines (isLiteral : Bool) (indent : Nat) : Nat → BlockText → Cursor → BlockText × Cursor
  | 0, b, c => (b, c)
  | fuel + 1, b, c =>
    if c.column ≠ indent ∨ c.peek = endMark ∨ (indent = 0 ∧ c.isDocumentEnd) then (b, c)
    else
      let b := b.join isLiteral (isBlank c.peek)
      let (line, c) := c.spanVisible (!isBreakOrEnd ·)
      let b := { b with text := line.reverse ++ b.text }
      if c.peek = endMark then (b, c)
      else
        let (breaks, c) := blockIndent indent fuel 0 c.lineBreak
        blockLines isLiteral indent fuel { b with isBroken := true, breaks } c

/-- The text of a block that the end of the text leaves without a line. -/
def emptyBlock (chomping : Chomping) (onFirstLine isBroken : Bool) (breaks : Nat) : String :=
  let first := if isBroken then "\n" else ""
  match chomping with
  | .strip => ""
  | .clip => if onFirstLine then "" else first
  | .keep =>
    if onFirstLine then "" else if breaks = 0 then first else .ofList (List.replicate breaks '\n')

/-- `scan_block_scalar`, inside of a structure that is indented by `indent`. -/
def block (isLiteral : Bool) (indent : Int) (size : Nat) (c : Cursor) :
    Except SyntaxError (String × Cursor) := do
  let (header, d) ← blockHeader c.visible
  let d ← d.skipGap
  if ¬ isBreakOrEnd d.peek then
    d.fail "while scanning a block scalar, did not find expected comment or line break"
  let isBroken := isBreak d.peek
  let d := if isBroken then d.lineBreak else d
  if d.peek = '\t' then d.fail "a block scalar content cannot start with a tab"
  let (column, breaks, d) :=
    if header.increment = 0 then
      let (greatest, breaks, e) := blockFirstIndent size 0 0 d
      let column := max greatest (indent + 1).toNat
      (if 0 < indent then max column 1 else column, breaks, e)
    else
      let column := (max indent 0).toNat + header.increment
      let (breaks, e) := blockIndent column size 0 d
      (column, breaks, e)
  if d.peek = endMark then
    return (emptyBlock header.chomping (d.line = c.line) isBroken breaks, d)
  if d.column < column ∧ indent < d.column then
    d.fail "wrongly indented line in block scalar"
  let (b, e) := blockLines isLiteral column size { breaks } d
  let endsOpen := e.peek = endMark && max column 1 ≤ e.column
  return (.ofList (b.finish header.chomping endsOpen).reverse, e)

end ReleaseKeeper.Yaml
