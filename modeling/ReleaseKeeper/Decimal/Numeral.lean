import ReleaseKeeper.Decimal.Binary64
/-!
# Reading decimal numerals

A numeral is a sign, digits with at most one point among or beside them, and perhaps an exponent.
It denotes `± digits · 10 ^ power`. Whole numbers are read with an optional sign in a given base.
-/
namespace ReleaseKeeper

/-- The value of a digit in a base up to sixteen, letters of either case counting from ten. -/
def digitValue? (base : Nat) (c : Char) : Option Nat :=
  let v :=
    if '0' ≤ c ∧ c ≤ '9' then c.toNat - '0'.toNat
    else if 'a' ≤ c ∧ c ≤ 'f' then c.toNat - 'a'.toNat + 10
    else if 'A' ≤ c ∧ c ≤ 'F' then c.toNat - 'A'.toNat + 10
    else base
  if v < base then some v else none

/-- The number written by one or more digits. -/
def readNat? (base : Nat) : List Char → Option Nat
  | [] => none
  | cs => cs.foldlM (fun n c => (digitValue? base c).map (base * n + ·)) 0

/-- A whole number between two bounds, with an optional sign. -/
def readInt? (base : Nat) (low high : Int) (cs : List Char) : Option Int :=
  let value? : Option Int := match cs with
    | '-' :: rest => (readNat? base rest).map fun n => -(n : Int)
    | '+' :: rest => (readNat? base rest).map fun n => (n : Int)
    | rest => (readNat? base rest).map fun n => (n : Int)
  value?.filter fun v => low ≤ v && v ≤ high

/-- A signed whole number of 64 bits. -/
def readInt64? (base : Nat) (cs : List Char) : Option Int :=
  readInt? base (-9223372036854775808) 9223372036854775807 cs

/-- The decimal `± digits · 10 ^ power`. -/
structure Numeral where
  negative : Bool
  digits : Nat
  power : Int
deriving DecidableEq, Repr

namespace Numeral

/-- Numerals beyond these powers of ten are infinite or zero whatever their digits. -/
def reach : Int := 400

/-- The floating point number nearest to a numeral. -/
def nearest (n : Numeral) : Binary64 :=
  let size : Int := (Nat.toDigits 10 n.digits).length + n.power
  if n.digits = 0 ∨ size < -reach then .ofMagnitude n.negative 0
  else if reach < size then .infinity n.negative
  else if 0 ≤ n.power then .ofRatio n.negative (n.digits * tenTo n.power.toNat) 1
  else .ofRatio n.negative n.digits (tenTo (-n.power).toNat)

def spanDigits (cs : List Char) : List Char × List Char := cs.span Char.isDigit

/-- The exponent behind `e` or `E`; a text without one has exponent zero. -/
def readExponent? : List Char → Option Int
  | [] => some 0
  | c :: rest =>
    if c = 'e' ∨ c = 'E' then
      match rest with
      | '-' :: ds => (readNat? 10 ds).map fun n => -(n : Int)
      | '+' :: ds => (readNat? 10 ds).map fun n => (n : Int)
      | ds => (readNat? 10 ds).map fun n => (n : Int)
    else none

/-- An unsigned numeral: digits before a point, behind it, or both. -/
def readUnsigned? (negative : Bool) (cs : List Char) : Option Numeral :=
  let (whole, rest) := spanDigits cs
  let (places, rest) := match rest with
    | '.' :: rest => spanDigits rest
    | rest => ([], rest)
  match readNat? 10 (whole ++ places), readExponent? rest with
  | some digits, some e => some ⟨negative, digits, e - places.length⟩
  | _, _ => none

def read? : List Char → Option Numeral
  | '-' :: rest => readUnsigned? true rest
  | '+' :: rest => readUnsigned? false rest
  | cs => readUnsigned? false cs

end Numeral

/-- A number in words: infinite or undefined, in any case, with an optional sign. -/
def readNumberWord? (cs : List Char) : Option Binary64 :=
  let (negative, word) := match cs with
    | '-' :: rest => (true, rest)
    | '+' :: rest => (false, rest)
    | rest => (false, rest)
  let word := String.ofList (word.map Char.toLower)
  if word = "inf" ∨ word = "infinity" then some (.infinity negative)
  else if word = "nan" then some .nan
  else none

/-- A floating point number written as a numeral or in words. -/
def readBinary64? (cs : List Char) : Option Binary64 :=
  match Numeral.read? cs with
  | some n => some n.nearest
  | none => readNumberWord? cs

example : (readBinary64? "1.10".toList) = some ⟨0x3ff199999999999a⟩ := by decide
example : (readBinary64? "-.5".toList) = some ⟨0xbfe0000000000000⟩ := by decide
example : (readBinary64? "5.".toList) = some ⟨0x4014000000000000⟩ := by decide
example : (readBinary64? "e5".toList) = none := by decide
example : (readBinary64? "1e999".toList) = some (.infinity false) := by decide
example : readInt64? 10 "-9223372036854775808".toList = some (-9223372036854775808) := by decide
example : readInt64? 10 "9223372036854775808".toList = none := by decide

end ReleaseKeeper
