/-!
# Binary64 numbers

A finite number of the interchange format binary64 is held by its bits,
and every operation on it is exact integer arithmetic followed by one
rounding: to the nearest value, a tie to the even one. A result beyond
the greatest finite value is no number. No floating point unit is asked.
-/

namespace SplitBuild

/-- A power of two. -/
def twoTo (k : Nat) : Nat := Nat.pow 2 k

/-- A power of ten. -/
def tenTo (k : Nat) : Nat := Nat.pow 10 k

/-- A number in the interchange format binary64, by its bits. -/
structure Binary64 where
  /-- Sign, eleven bits of exponent, fifty-two bits of fraction. -/
  bits : UInt64
  deriving DecidableEq, Repr

namespace Binary64

/-! ## What the bits stand for -/

/-- The sign bit is set. -/
def isNegative (x : Binary64) : Bool := x.bits >>> 63 = 1

/-- The exponent field. -/
def exponentField (x : Binary64) : Nat := ((x.bits >>> 52) &&& 0x7FF).toNat

/-- The fraction field. -/
def fraction (x : Binary64) : Nat := (x.bits &&& 0xFFFFFFFFFFFFF).toNat

/-- The integer that a power of two scales to the magnitude. -/
def significand (x : Binary64) : Nat :=
  if x.exponentField = 0 then x.fraction else twoTo 52 + x.fraction

/-- The exponent of that power of two. -/
def exponent (x : Binary64) : Int :=
  if x.exponentField = 0 then -1074 else (x.exponentField : Int) - 1075

/-- The value below is half as far away as the value above. -/
def isNarrowBelow (x : Binary64) : Bool := x.fraction = 0 && x.exponentField > 1

/-- The number with its sign bit set or cleared. -/
def withSign (x : Binary64) (negative : Bool) : Binary64 :=
  let magnitude := x.bits &&& 0x7FFFFFFFFFFFFFFF
  ⟨if negative then magnitude ||| 0x8000000000000000 else magnitude⟩

/-- Positive zero. -/
def zero : Binary64 := ⟨0⟩

/-! ## Rounding -/

/-- The nearest integer to a quotient, a tie to the even one. -/
def roundDiv (num den : Nat) : Nat :=
  let quotient := num / den
  let rest := num % den
  if 2 * rest < den then quotient
  else if den < 2 * rest then quotient + 1
  else if quotient % 2 = 0 then quotient else quotient + 1

/-- `num / den` reaches the given power of two. -/
def reaches (num den : Nat) (power : Int) : Bool :=
  den * twoTo power.toNat ≤ num * twoTo (-power).toNat

/-- The nearest number to a quotient of naturals, unless it lies beyond
the finite ones. -/
def ofRatio (num den : Nat) : Option Binary64 :=
  if num = 0 then some zero
  else
    let estimate : Int := (num.log2 : Int) - den.log2
    let leading := if reaches num den estimate then estimate else estimate - 1
    let scale := max (leading - 52) (-1074)
    let rounded := roundDiv (num * twoTo (-scale).toNat) (den * twoTo scale.toNat)
    let bits := (scale + 1074).toNat * twoTo 52 + rounded
    if bits < 0x7FF * twoTo 52 then some ⟨bits.toUInt64⟩ else none

/-- The nearest number to `a * 2 ^ i / b`. -/
def ofScaled (a : Nat) (i : Int) (b : Nat) : Option Binary64 :=
  ofRatio (a * twoTo i.toNat) (b * twoTo (-i).toNat)

/-- The nearest number to a natural. -/
def ofNat (n : Nat) : Option Binary64 := ofRatio n 1

/-- The nearest number to a power of ten. -/
def powerOfTen (k : Nat) : Option Binary64 := ofNat (tenTo k)

/-- The nearest number to the decimal `digits * 10 ^ e`. Decimals far
outside the range of the format are told apart by their leading place. -/
def ofDecimal (digits : Nat) (e : Int) : Option Binary64 :=
  let place := (Nat.toDigits 10 digits).length + e
  if digits = 0 ∨ place < -330 then some zero
  else if 310 < place then none
  else ofRatio (digits * tenTo e.toNat) (tenTo (-e).toNat)

/-! ## Products and quotients of magnitudes -/

/-- The product of two magnitudes, rounded once. -/
def times (x y : Binary64) : Option Binary64 :=
  ofScaled (x.significand * y.significand) (x.exponent + y.exponent) 1

/-- The quotient of two magnitudes, rounded once. -/
def quotient (x y : Binary64) : Option Binary64 :=
  if y.significand = 0 then none
  else ofScaled x.significand (x.exponent - y.exponent) y.significand

end Binary64

end SplitBuild
