import ReleaseKeeper.Text.Unprintable
/-!
# Quoted text in messages

Text from outside is shown between double quotes. Quotes, backslashes and what does not print are
escaped, so that a message stays on one line and can be told from the text that it shows.
-/
namespace ReleaseKeeper.Text

def quotedChar (c : Char) : List Char :=
  match c with
  | '"' => ['\\', '"']
  | '\\' => ['\\', '\\']
  | '\n' => ['\\', 'n']
  | '\r' => ['\\', 'r']
  | '\t' => ['\\', 't']
  | c =>
    if c.toNat = 0 then ['\\', '0']
    else if isUnprintable c then
      '\\' :: 'u' :: '\x7b' :: Nat.toDigits 16 c.toNat ++ ['\x7d']
    else [c]

/-- A text between double quotes. -/
def quoted (s : String) : String :=
  .ofList ('"' :: s.toList.flatMap quotedChar ++ ['"'])

end ReleaseKeeper.Text
