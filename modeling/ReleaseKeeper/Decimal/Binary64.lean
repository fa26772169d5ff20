/-!
# Binary floating point numbers of 64 bits

A number is its bit pattern: sign, eleven bits of exponent, 52 bits of fraction. The finite ones are
`± significand · 2 ^ exponent`. Rounding takes a quotient of natural numbers to the nearest pattern,
a tie going to the even one, in exact arithmetic.
-/
namespace ReleaseKeeper

abbrev twoTo (n : Nat) : Nat := Nat.pow 2 n

abbrev tenTo (n : Nat) : Nat := Nat.pow 10 n

/-- A floating point number, as the 64 bits that store it. -/
structure Binary64 where
  bits : UInt64
deriving DecidableEq, Repr, Inhabited

namespace Binary64

/-- The number is below zero, or the zero below zero. -/
def negative (x : Binary64) : Bool := x.bits.toNat / twoTo 63 % 2 = 1

def exponentField (x : Binary64) : Nat := x.bits.toNat / twoTo 52 % twoTo 11

def fraction (x : Binary64) : Nat := x.bits.toNat % twoTo 52

def isFinite (x : Binary64) : Bool := x.exponentField != 2047

def isNaN (x : Binary64) : Bool := x.exponentField = 2047 && x.fraction != 0

def isZero (x : Binary64) : Bool := x.exponentField = 0 && x.fraction = 0

/-- The whole number that is scaled by `2 ^ exponent`. -/
def significand (x : Binary64) : Nat :=
  if x.exponentField = 0 then x.fraction else x.fraction + twoTo 52

/-- The power of two that scales the significand. -/
def exponent (x : Binary64) : Int :=
  if x.exponentField = 0 then -1074 else x.exponentField - 1075

/-- Numbers compare as numbers: the two zeros are equal, and nothing equals what is undefined. -/
def same (x y : Binary64) : Bool :=
  if x.isNaN || y.isNaN then false
  else x.bits = y.bits || (x.isZero && y.isZero)

/-- The pattern of a sign and of the bits below it. -/
def ofMagnitude (negative : Bool) (magnitude : Nat) : Binary64 :=
  ⟨.ofNat ((if negative then twoTo 63 else 0) + magnitude)⟩

def infinity (negative : Bool) : Binary64 := ofMagnitude negative (2047 * twoTo 52)

def nan : Binary64 := ⟨0x7ff8000000000000⟩

/-- The whole number nearest to `num / den`, a tie going to the even one. -/
def roundQuotient (num den : Nat) : Nat :=
  let low := num / den
  let twice := 2 * (num % den)
  if twice < den then low
  else if den < twice then low + 1
  else low + low % 2

/-- The number nearest to `num / den`; what is too large for a finite number is infinite. -/
def ofRatio (negative : Bool) (num den : Nat) : Binary64 :=
  if num = 0 then ofMagnitude negative 0
  else
    let guess : Int := (Nat.log2 num : Int) - Nat.log2 den - 52
    let below (e : Int) : Bool :=
      if 0 ≤ e then num < den * twoTo (52 + e.toNat) else num * twoTo (-e).toNat < den * twoTo 52
    let fit := if below guess then guess - 1 else guess
    let e := max fit (-1074)
    let rounded :=
      if 0 ≤ e then roundQuotient num (den * twoTo e.toNat)
      else roundQuotient (num * twoTo (-e).toNat) den
    let magnitude := (e + 1074).toNat * twoTo 52 + rounded
    if 2047 * twoTo 52 ≤ magnitude then infinity negative else ofMagnitude negative magnitude

/-- The product of two numbers that are not below zero, rounded once. -/
def scaleUp (x y : Binary64) (negative : Bool) : Binary64 :=
  let e := x.exponent + y.exponent
  let m := x.significand * y.significand
  if 0 ≤ e then ofRatio negative (m * twoTo e.toNat) 1 else ofRatio negative m (twoTo (-e).toNat)

/-- The quotient of two numbers that are not below zero, rounded once. -/
def scaleDown (x y : Binary64) (negative : Bool) : Binary64 :=
  let e := x.exponent - y.exponent
  if 0 ≤ e then ofRatio negative (x.significand * twoTo e.toNat) y.significand
  else ofRatio negative x.significand (y.significand * twoTo (-e).toNat)

example : ofRatio false 1 10 = ⟨0x3fb999999999999a⟩ := by decide
example : ofRatio true 5 2 = ⟨0xc004000000000000⟩ := by decide
example : ofRatio false (twoTo 63) 1 = ⟨0x43e0000000000000⟩ := by decide
example : ofRatio false 1 (twoTo 1074) = ⟨1⟩ := by decide +kernel
example : ofRatio false (twoTo 53 - 1) 1 = ⟨0x433fffffffffffff⟩ := by decide

end Binary64

end ReleaseKeeper
