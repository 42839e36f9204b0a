import SplitBuild.Json.Value
/-!
# Numerals

A numeral is the text of a number taken apart: sign, digits before and
after the point, exponent. It stands for an integer where it has neither
point nor exponent and fits sixty-four bits, and for a binary64 number
otherwise.

The digits of a binary64 number are gathered into one word of sixty-four
bits for as long as they fit it. That word is rounded once, and scaling
it by a power of ten rounds again, at most three hundred and eight places
at a time. The result may therefore differ from the nearest number in its
last bit.
-/

namespace SplitBuild

namespace Json

/-- The text of a number, taken apart. -/
structure Numeral where
  /-- A minus sign stands in front. -/
  isNegative : Bool
  /-- The digits before the point. -/
  whole : List Nat
  /-- The digits after the point, where there is one. -/
  fraction : List Nat
  /-- The exponent of ten, where there is one. -/
  exponent : Option Int
  deriving DecidableEq, Repr

namespace Numeral

/-- The greatest word of sixty-four bits. -/
def maxWord : Nat := twoTo 64 - 1

/-- The greatest exponent that is read as a number. -/
def maxExponent : Nat := twoTo 31 - 1

/-- Digits appended to a word for as long as it holds them, and how many
are left out. -/
def gather (word : Nat) : List Nat → Nat × Nat
  | [] => (word, 0)
  | d :: ds => if word * 10 + d ≤ maxWord then gather (word * 10 + d) ds else (word, ds.length + 1)

/-- A magnitude scaled by a power of ten, unless it lies beyond the finite
numbers. -/
def scale (x : Binary64) (e : Int) : Option Binary64 :=
  if e.natAbs ≤ 308 then
    (Binary64.powerOfTen e.natAbs).bind fun power =>
      if 0 ≤ e then x.times power else x.quotient power
  else if x.significand = 0 then some x
  else if 0 ≤ e then none
  else (Binary64.powerOfTen 308).bind fun power =>
    (x.quotient power).bind fun y => scale y (e + 308)
termination_by (-e).toNat
decreasing_by omega

/-- The binary64 number of a word and an exponent of ten. -/
def floatOf (isNegative : Bool) (word : Nat) (e : Int) : Option Number :=
  ((Binary64.ofNat word).bind fun x => scale x e).map fun x => .float (x.withSign isNegative)

/-- The number of a numeral without point and exponent. -/
def integerOf (isNegative : Bool) (word : Nat) : Option Number :=
  if !isNegative then some (.int word)
  else if word = 0 ∨ twoTo 63 < word then floatOf true word 0
  else some (.int (-word))

/-- The number that a numeral stands for; none beyond the finite numbers. -/
def number? (n : Numeral) : Option Number :=
  let (word, skipped) := gather 0 n.whole
  if n.fraction.isEmpty ∧ n.exponent = none ∧ skipped = 0 then integerOf n.isNegative word
  else
    let (word, unread) := gather word n.fraction
    let places : Int := (skipped : Int) - (n.fraction.length - unread : Nat)
    match n.exponent with
    | none => floatOf n.isNegative word places
    | some e =>
      if e.natAbs ≤ maxExponent then floatOf n.isNegative word (places + e)
      else if word ≠ 0 ∧ 0 < e then none
      else floatOf n.isNegative 0 0

end Numeral

end Json

end SplitBuild
