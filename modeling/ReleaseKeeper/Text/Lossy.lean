/-!
# Bytes shown as a text

Bytes that are to be a text need not be one. Shown as a text, every longest run of bytes that begins
a character and ends before the character does is replaced, and so is every byte that begins none.
-/
namespace ReleaseKeeper.Text

/-- A character of which the first bytes have come: what they add up to, what the next byte has to lie
between, and how many are to come after that one. -/
structure Begun where
  value : Nat
  low : UInt8
  high : UInt8
  more : Nat

def replacement : Char := '\uFFFD'

def begun? (b : UInt8) : Option Begun :=
  if 0xC2 ≤ b ∧ b ≤ 0xDF then some ⟨b.toNat - 0xC0, 0x80, 0xBF, 0⟩
  else if b = 0xE0 then some ⟨0, 0xA0, 0xBF, 1⟩
  else if b = 0xED then some ⟨13, 0x80, 0x9F, 1⟩
  else if 0xE1 ≤ b ∧ b ≤ 0xEF then some ⟨b.toNat - 0xE0, 0x80, 0xBF, 1⟩
  else if b = 0xF0 then some ⟨0, 0x90, 0xBF, 2⟩
  else if b = 0xF4 then some ⟨4, 0x80, 0x8F, 2⟩
  else if 0xF1 ≤ b ∧ b ≤ 0xF3 then some ⟨b.toNat - 0xF0, 0x80, 0xBF, 2⟩
  else none

/-- What a byte is shown as where a character begins, and the character that it begins. -/
def firstByte (b : UInt8) : List Char × Option Begun :=
  if b < 0x80 then ([Char.ofNat b.toNat], none)
  else
    match begun? b with
    | some begun => ([], some begun)
    | none => ([replacement], none)

/-- What a byte is shown as after a character was begun. -/
def nextByte (begun : Begun) (b : UInt8) : List Char × Option Begun :=
  if begun.low ≤ b ∧ b ≤ begun.high then
    let value := begun.value * 64 + (b.toNat - 0x80)
    match begun.more with
    | 0 => ([Char.ofNat value], none)
    | more + 1 => ([], some ⟨value, 0x80, 0xBF, more⟩)
  else
    let (shown, begun) := firstByte b
    (replacement :: shown, begun)

/-- What bytes are shown as behind a character that was begun, if one was. -/
def shownFrom : Option Begun → List UInt8 → List Char
  | none, [] => []
  | some _, [] => [replacement]
  | begun?, b :: rest =>
    let (shown, begun?) := match begun? with
      | none => firstByte b
      | some begun => nextByte begun b
    shown ++ shownFrom begun? rest

def shown (bytes : List UInt8) : String := .ofList (shownFrom none bytes)

end ReleaseKeeper.Text
