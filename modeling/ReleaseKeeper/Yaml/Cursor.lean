/-!
# Places in a YAML text

A cursor is a place in a text: what is still to be read, with line and column. It moves over one
character, or over one line break, at a time, and it knows whether anything but blanks was read on
its line. A NUL character ends the text.
-/
namespace ReleaseKeeper.Yaml

/-! ## Classes of characters -/

/-- What the end of the text looks like. -/
def endMark : Char := '\x00'

def isBlank (c : Char) : Bool := c = ' ' || c = '\t'

/-- What ends a line inside of a text. -/
def isBreak (c : Char) : Bool := c = '\n' || c = '\r'

def isBreakOrEnd (c : Char) : Bool := isBreak c || c = endMark

/-- What may stand behind a mark that has to stand by itself. -/
def isSpace (c : Char) : Bool := isBlank c || isBreakOrEnd c

/-- The characters with a meaning between brackets. -/
def isFlow (c : Char) : Bool := [',', '[', ']', '\x7b', '\x7d'].contains c

def isNameChar (c : Char) : Bool := c.isAlphanum || c = '_' || c = '-'

def isUriChar (c : Char) : Bool :=
  (isNameChar c && c != '_') || "#;/?:@&=+$,_.!~*'()[]%".toList.contains c

def isTagChar (c : Char) : Bool := isUriChar c && !isFlow c && c != '!'

def isAnchorChar (c : Char) : Bool := !isSpace c && !isFlow c && c != '\ufeff'

/-! ## Moving -/

/-- A place in a text. -/
structure Cursor where
  rest : List Char
  index : Nat := 0
  line : Nat := 1
  column : Nat := 0
  /-- Whether only blanks were read on this line. -/
  isFresh : Bool := true
deriving Repr, Inhabited

structure SyntaxError where
  detail : String
  line : Nat
  column : Nat
deriving Repr

def SyntaxError.message (e : SyntaxError) : String :=
  let column := e.column + 1
  s!"{e.detail} at line {e.line} column {column}"

namespace Cursor

def start (text : String) : Cursor where
  rest := text.toList.takeWhile (· ≠ endMark)

def fail {α : Type} (c : Cursor) (detail : String) : Except SyntaxError α :=
  .error ⟨detail, c.line, c.column⟩

def peek (c : Cursor) : Char := c.rest.headD endMark

def peekNext (c : Cursor) : Char := (c.rest.drop 1).headD endMark

def blank (c : Cursor) : Cursor :=
  { c with rest := c.rest.drop 1, index := c.index + 1, column := c.column + 1 }

/-- Moves over a character that is no blank. -/
def visible (c : Cursor) : Cursor := { c.blank with isFresh := false }

def visibles (n : Nat) (c : Cursor) : Cursor := n.repeat visible c

/-- Moves over a line break, of which a carriage return and a line feed make up one. -/
def lineBreak (c : Cursor) : Cursor :=
  let size := if c.peek = '\r' ∧ c.peekNext = '\n' then 2 else 1
  { rest := c.rest.drop size, index := c.index + size, line := c.line + 1, column := 0
    isFresh := true }

def blanks (c : Cursor) : Cursor := (c.rest.takeWhile isBlank).foldl (fun c _ => c.blank) c

def spaces (c : Cursor) : Cursor := (c.rest.takeWhile (· = ' ')).foldl (fun c _ => c.blank) c

/-- Moves over the characters of a class, none of them a blank, and tells them. -/
def spanVisible (p : Char → Bool) (c : Cursor) : List Char × Cursor :=
  let cs := c.rest.takeWhile p
  (cs, c.visibles cs.length)

def toLineEnd (c : Cursor) : Cursor := (c.spanVisible (!isBreakOrEnd ·)).2

/-- Whether three of a character stand here by themselves. -/
def isTripled (mark : Char) (c : Cursor) : Bool :=
  match c.rest with
  | x :: y :: z :: rest => x = mark && y = mark && z = mark && isSpace (rest.headD endMark)
  | _ => false

def isDocumentStart (c : Cursor) : Bool := c.isTripled '-'

def isDocumentEnd (c : Cursor) : Bool := c.isTripled '.'

def isDocumentMark (c : Cursor) : Bool := c.isDocumentStart || c.isDocumentEnd

/-- The blanks behind a token. -/
structure Gap where
  hasTab : Bool := false
  hasSpace : Bool := false

/-- Moves over blanks and a comment, which has to be apart from what is before it. -/
def gapFrom (allowTabs : Bool) : Nat → Gap → Cursor → Except SyntaxError (Gap × Cursor)
  | 0, gap, c => .ok (gap, c)
  | fuel + 1, gap, c =>
    if c.peek = ' ' then gapFrom allowTabs fuel { gap with hasSpace := true } c.blank
    else if c.peek = '\t' ∧ allowTabs then
      gapFrom allowTabs fuel { gap with hasTab := true } c.blank
    else if c.peek = '#' then
      if gap.hasTab ∨ gap.hasSpace then .ok (gap, c.toLineEnd)
      else c.fail "comments must be separated from other tokens by whitespace"
    else .ok (gap, c)

/-- Moves over blanks and a comment behind a token. -/
def gap (allowTabs : Bool) (c : Cursor) : Except SyntaxError (Gap × Cursor) :=
  gapFrom allowTabs ((c.rest.takeWhile isBlank).length + 1) {} c

/-- Moves over blanks and a comment, tabs counting as blanks. -/
def skipGap (c : Cursor) : Except SyntaxError Cursor := (c.gap true).map (·.2)

end Cursor

end ReleaseKeeper.Yaml
