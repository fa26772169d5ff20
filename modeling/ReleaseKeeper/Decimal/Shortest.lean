import ReleaseKeeper.Decimal.Binary64
/-!
# The shortest decimal that reads back

The text of a finite number has the fewest digits that still round to it; of those it is the
nearest. Digits are looked for on coarser and finer decimal grids in exact arithmetic. Two layouts
are used: positional throughout, and positional for moderate sizes with an exponent beyond them.
-/
namespace ReleaseKeeper.Binary64

structure Digits where
  digits : Nat
  power : Int
deriving DecidableEq, Repr

/-- Whether `digits · 10 ^ power` rounds to the magnitude of `x`. -/
def readsAs (x : Binary64) (d : Digits) : Bool :=
  let y := if 0 ≤ d.power then ofRatio false (d.digits * tenTo d.power.toNat) 1
    else ofRatio false d.digits (tenTo (-d.power).toNat)
  y.significand = x.significand && y.exponent = x.exponent && y.isFinite

/-- The magnitude of `x` as a quotient of natural numbers. -/
def ratio (x : Binary64) : Nat × Nat :=
  if 0 ≤ x.exponent then (x.significand * twoTo x.exponent.toNat, 1)
  else (x.significand, twoTo (-x.exponent).toNat)

/-- The largest `p` for which `10 ^ p` is not above `num / den`, searched downwards. -/
def decimalSize (num den : Nat) : Nat → Int → Int
  | 0, p => p
  | fuel + 1, p =>
    let fits := if 0 ≤ p then den * tenTo p.toNat ≤ num else den ≤ num * tenTo (-p).toNat
    if fits then p else decimalSize num den fuel (p - 1)

/-- The neighbours of a quotient on the grid of multiples of `10 ^ power`, the nearer one first. -/
def neighbours (num den : Nat) (power : Int) : List Digits :=
  let n := if 0 ≤ power then num else num * tenTo (-power).toNat
  let d := if 0 ≤ power then den * tenTo power.toNat else den
  let low := n / d
  let twice := 2 * (n % d)
  if twice < d ∨ (twice = d ∧ low % 2 = 0) then [⟨low, power⟩, ⟨low + 1, power⟩]
  else [⟨low + 1, power⟩, ⟨low, power⟩]

/-- The first grid, from coarse to fine, on which a neighbour reads back. -/
def searchGrids (x : Binary64) (num den : Nat) : Nat → Int → Digits
  | 0, power => ⟨0, power⟩
  | fuel + 1, power =>
    match (neighbours num den power).find? x.readsAs with
    | some d => d
    | none => searchGrids x num den fuel (power - 1)

def trimZeros : Nat → Digits → Digits
  | 0, d => d
  | fuel + 1, d =>
    if d.digits ≠ 0 ∧ d.digits % 10 = 0 then trimZeros fuel ⟨d.digits / 10, d.power + 1⟩ else d

/-- The shortest digits of the magnitude of a finite number. -/
def shortest (x : Binary64) : Digits :=
  if x.isZero then ⟨0, 0⟩
  else
    let (num, den) := x.ratio
    let bits : Int := (num.log2 : Int) - den.log2 + 1
    let size := decimalSize num den 4 (bits * 30103 / 100000 + 1)
    trimZeros 20 (searchGrids x num den 20 size)

def digitChars (n : Nat) : List Char := Nat.toDigits 10 n

/-- All digits written out, with a point and at least one digit behind it. -/
def positional (x : Binary64) : String :=
  let d := x.shortest
  let sign := if x.negative then "-" else ""
  let ds := digitChars d.digits
  if 0 ≤ d.power then sign ++ .ofList (ds ++ List.replicate d.power.toNat '0') ++ ".0"
  else
    let places := (-d.power).toNat
    let padded := List.replicate (places + 1 - ds.length) '0' ++ ds
    let whole := padded.take (padded.length - places)
    sign ++ .ofList (whole ++ '.' :: padded.drop (padded.length - places))

/-- Positional between `10 ^ -5` and `10 ^ 16`, otherwise with an exponent. -/
def compact (x : Binary64) : String :=
  let d := x.shortest
  let ds := digitChars d.digits
  let point : Int := ds.length + d.power
  if d.digits = 0 ∨ (-5 < point ∧ point ≤ 16) then x.positional
  else
    let sign := if x.negative then "-" else ""
    let mantissa := match ds with
      | [] => []
      | [c] => [c]
      | c :: rest => c :: '.' :: rest
    sign ++ .ofList mantissa ++ "e" ++ toString (point - 1)

end ReleaseKeeper.Binary64
