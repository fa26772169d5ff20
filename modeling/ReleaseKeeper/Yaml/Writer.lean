import ReleaseKeeper.Json.Writer
import ReleaseKeeper.Text.Cut
import ReleaseKeeper.Yaml.Node
/-!
# Writing YAML text

As serde_yaml (0.9) writes a value. Objects and lists are written as blocks, one entry a line, the
items of a list no deeper than its key. A string stands without quotes where it would be read back
as itself; it is quoted once where quotes are enough, and with escapes where characters would be
lost.
-/
namespace ReleaseKeeper.Yaml.Writer

/-- Words that some readers take for truth values. -/
def truthWords : List String := ["y", "n", "yes", "no", "on", "off", "true", "false", "null"]

/-- Characters that begin something else than a plain string. -/
def indicators : List Char := [
  '#', ',', '[', ']', '\x7b', '\x7d', '&', '*', '!', '|', '>', '\'', '"', '%', '@', '\u0060']

/-- Characters that are marks in front of a blank only. -/
def weakIndicators : List Char := ['-', '?', ':']

def isBlankFirst : List Char → Bool
  | [] => true
  | c :: _ => c = ' '

def beginsWithMark : List Char → Bool
  | [] => true
  | c :: rest =>
    c = ' ' || indicators.contains c || (weakIndicators.contains c && isBlankFirst rest)

/-- Whether a mark of a mapping or a comment stands inside of a string. -/
def holdsMark : List Char → Bool
  | [] => false
  | [c] => c = ':' || c = ' '
  | c :: d :: rest => (c = ':' && d = ' ') || (c = ' ' && d = '#') || holdsMark (d :: rest)

/-- Whether a string begins like a mark between documents. -/
def beginsWithDocumentMark (cs : List Char) : Bool :=
  (Text.afterPrefix ['-', '-', '-'] cs).isSome || (Text.afterPrefix ['.', '.', '.'] cs).isSome

/-- Whether a string without quotes would be read as something else. -/
def isAmbiguous (s : String) : Bool :=
  truthWords.contains s.toLower ||
    match Node.ofPlain s with
    | .str _ => false
    | _ => true

def isPlain (s : String) : Bool :=
  !(beginsWithMark s.toList || holdsMark s.toList || beginsWithDocumentMark s.toList ||
    isAmbiguous s)

def isVisible (c : Char) : Bool := c.toNat ≥ 0x20 && c.toNat != 0x7f

def scalar (s : String) : String :=
  if !s.toList.all isVisible then Json.quote s
  else if isPlain s then s
  else .ofList ('\'' :: s.toList.flatMap quoteTwice ++ ['\''])
where
  /-- A character between single quotes, which are written twice. -/
  quoteTwice (c : Char) : List Char := if c = '\'' then ['\'', '\''] else [c]

/-- What fits behind a key: scalars and what is empty. -/
def inline? : Json → Option String
  | .str s => some (scalar s)
  | .arr [] => some "[]"
  | .obj [] => some "\x7b\x7d"
  | .arr _ | .obj _ => none
  | x => some x.write

/-- Lines one step deeper. -/
def deeper (lines : List String) : List String := lines.map ("  " ++ ·)

/-- Lines behind the mark of an item. -/
def asItem : List String → List String
  | [] => ["-"]
  | line :: rest => ("- " ++ line) :: deeper rest

def isObject : Json → Bool
  | .obj _ => true
  | _ => false

mutual

def lines : Json → List String
  | .arr items => itemLines items
  | .obj members => memberLines members
  | x => (inline? x).toList
termination_by structural x => x

def itemLines : List Json → List String
  | [] => []
  | x :: rest =>
    (match inline? x with
      | some text => asItem [text]
      | none => asItem (lines x)) ++ itemLines rest
termination_by structural xs => xs

def memberLines : List (String × Json) → List String
  | [] => []
  | (key, x) :: rest =>
    (match inline? x with
      | some text => [s!"{scalar key}: {text}"]
      | none => s!"{scalar key}:" :: (if isObject x then deeper (lines x) else lines x)) ++
      memberLines rest
termination_by structural xs => xs

end

def write (x : Json) : String :=
  match inline? x with
  | some text => text ++ "\n"
  | none => String.join ((lines x).map (· ++ "\n"))

end ReleaseKeeper.Yaml.Writer
