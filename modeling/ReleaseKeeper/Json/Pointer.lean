import ReleaseKeeper.Decimal.Numeral
import ReleaseKeeper.Json.Basic
import ReleaseKeeper.Text.Cut
/-!
# Pointers into a value

As `pointer` of serde_json reads them. A pointer is empty, or a list of segments each behind a
slash. In a segment `~1` stands for a slash and `~0` for a tilde. A segment names a member of an
object or, as a plain decimal without leading zeros, an item of an array.
-/
namespace ReleaseKeeper.Json

def segments (path : List Char) : List String := (Text.pieces '/' path).map String.ofList

def unescape (segment : String) : String :=
  Text.replaceAll "~0" "~" (Text.replaceAll "~1" "/" segment)

/-- The position that a segment stands for. -/
def index? (segment : String) : Option Nat :=
  match segment.toList with
  | ['0'] => some 0
  | '0' :: _ => none
  | '+' :: _ => none
  | cs => readNat? 10 cs

def step? (x : Json) (segment : String) : Option Json :=
  match x with
  | .obj members => members.lookup segment
  | .arr items => (index? segment).bind (items[·]?)
  | _ => none

/-- The value that a pointer leads to. -/
def pointer? (x : Json) (path : String) : Option Json :=
  match path.toList with
  | [] => some x
  | '/' :: rest => (segments rest).foldlM (fun v s => v.step? (unescape s)) x
  | _ => none

end ReleaseKeeper.Json
