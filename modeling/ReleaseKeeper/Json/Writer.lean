import ReleaseKeeper.Json.Basic
import ReleaseKeeper.Decimal.Shortest
/-!
# Writing JSON text

As serde_json writes a value: on one line without blanks. In strings the quote, the backslash and
control characters are escaped; all else stands for itself.
-/
namespace ReleaseKeeper.Json

def hexDigit (n : Nat) : Char := (Nat.toDigits 16 n).headD '0'

def escapeChar (c : Char) : List Char :=
  match c with
  | '"' => ['\\', '"']
  | '\\' => ['\\', '\\']
  | '\n' => ['\\', 'n']
  | '\r' => ['\\', 'r']
  | '\t' => ['\\', 't']
  | c =>
    if c.toNat = 8 then ['\\', 'b']
    else if c.toNat = 12 then ['\\', 'f']
    else if c.toNat < 32 then
      ['\\', 'u', '0', '0', hexDigit (c.toNat / 16), hexDigit (c.toNat % 16)]
    else [c]

def quote (s : String) : String :=
  .ofList ('"' :: s.toList.flatMap escapeChar ++ ['"'])

mutual

def write : Json → String
  | .null => "null"
  | .bool true => "true"
  | .bool false => "false"
  | .int n => toString n
  | .float x => x.compact
  | .str s => quote s
  | .arr items => "[" ++ ",".intercalate (writeItems items) ++ "]"
  | .obj members => "\x7b" ++ ",".intercalate (writeMembers members) ++ "\x7d"
termination_by structural x => x

def writeItems : List Json → List String
  | [] => []
  | x :: xs => x.write :: writeItems xs
termination_by structural x => x

def writeMembers : List (String × Json) → List String
  | [] => []
  | (k, x) :: xs => (quote k ++ ":" ++ x.write) :: writeMembers xs
termination_by structural x => x

end

end ReleaseKeeper.Json
