import SplitBuild.Decimal.Binary64
/-!
# The shortest decimal of a number

The reals that round to a binary64 number form an interval, from halfway
to the value below to halfway to the value above, with its ends exactly
when the significand is even. `shortest` finds a decimal with the fewest
digits in that interval, and of two such decimals the nearer one. The
search runs over grids of one digit, two digits and so on; on each grid
only the two neighbours of the value can lie in the interval.

`render` writes it: positionally where the leading digit has an exponent
from -5 to 15, and otherwise with a signed exponent.
-/

namespace SplitBuild

/-- The decimal `digits * 10 ^ exponent`. -/
structure Decimal where
  /-- The digits, as one natural. -/
  digits : Nat
  /-- The exponent of ten. -/
  exponent : Int
  deriving DecidableEq, Repr

namespace Decimal

/-! ## The interval of a number -/

/-- How `d` compares with `m * 2 ^ q`, exactly. -/
def compareScaled (d : Decimal) (m : Nat) (q : Int) : Ordering :=
  compare (d.digits * tenTo d.exponent.toNat * twoTo (-q).toNat)
    (m * twoTo q.toNat * tenTo (-d.exponent).toNat)

/-- A decimal lies among the reals that round to the magnitude of `x`. -/
def readsBack (d : Decimal) (x : Binary64) : Bool :=
  let low := if x.isNarrowBelow then 4 * x.significand - 1 else 4 * x.significand - 2
  let high := 4 * x.significand + 2
  let atLow := d.compareScaled low (x.exponent - 2)
  let atHigh := d.compareScaled high (x.exponent - 2)
  if x.significand % 2 = 0 then atLow != .lt && atHigh != .gt
  else atLow == .gt && atHigh == .lt

/-! ## The search -/

/-- The least `k` with `m * 2 ^ q < 10 ^ k`, from an estimate that is at
most two steps too low. -/
def scaleFrom (m : Nat) (q : Int) : Nat → Int → Int
  | 0, k => k
  | steps + 1, k =>
    if compareScaled ⟨1, k⟩ m q == .gt then k else scaleFrom m q steps (k + 1)

/-- The least `k` with `m * 2 ^ q < 10 ^ k`. -/
def scaleOf (m : Nat) (q : Int) : Int :=
  scaleFrom m q 5 (((m.log2 : Int) + q) * 30103 / 100000 - 1)

/-- The digits of the grid point at or below `m * 2 ^ q`, on the grid of
multiples of `10 ^ g`. -/
def floorOn (m : Nat) (q g : Int) : Nat :=
  (m * twoTo q.toNat * tenTo (-g).toNat) / (twoTo (-q).toNat * tenTo g.toNat)

/-- The neighbour of `x` on a grid that rounds to `x`, the nearer one
where both do and the even one on a tie. -/
def onGrid? (x : Binary64) (g : Int) : Option Decimal :=
  let below : Decimal := ⟨floorOn x.significand x.exponent g, g⟩
  let above : Decimal := ⟨below.digits + 1, g⟩
  match below.readsBack x, above.readsBack x with
  | false, false => none
  | true, false => some below
  | false, true => some above
  | true, true =>
    match compareScaled ⟨2 * below.digits + 1, g⟩ (2 * x.significand) x.exponent with
    | .gt => some below
    | .lt => some above
    | .eq => some (if below.digits % 2 = 0 then below else above)

/-- The first grid with a hit, from `k - n` on for `steps` grids. -/
def search (x : Binary64) (k : Int) : Nat → Nat → Option Decimal
  | 0, _ => none
  | steps + 1, n =>
    match onGrid? x (k - n) with
    | some d => some d
    | none => search x k steps (n + 1)

/-- The exact decimal of the magnitude of `x`. -/
def exact (x : Binary64) : Decimal :=
  ⟨x.significand * twoTo x.exponent.toNat * Nat.pow 5 (-x.exponent).toNat, min x.exponent 0⟩

/-- A decimal with the fewest digits that rounds to the magnitude of `x`. -/
def shortest (x : Binary64) : Decimal :=
  (search x (scaleOf x.significand x.exponent) 17 1).getD (exact x)

/-! ## Layout -/

/-- A decimal's digits without the zeros at the end. -/
def digitText (d : Decimal) : List Char :=
  ((Nat.toDigits 10 d.digits).reverse.dropWhile (· = '0')).reverse

/-- The exponent of the leading digit. -/
def leadingExponent (d : Decimal) : Int :=
  (Nat.toDigits 10 d.digits).length - 1 + d.exponent

/-- Digits laid out with the leading one at the given exponent. -/
def layout (digits : List Char) (leading : Int) : List Char :=
  if 0 ≤ leading ∧ leading ≤ 15 then
    let whole := leading.toNat + 1
    let padded := digits ++ List.replicate (whole - digits.length) '0'
    let rest := padded.drop whole
    padded.take whole ++ '.' :: (if rest.isEmpty then ['0'] else rest)
  else if -5 ≤ leading ∧ leading < 0 then
    '0' :: '.' :: (List.replicate ((-leading).toNat - 1) '0' ++ digits)
  else
    let sign := if leading < 0 then '-' else '+'
    let mantissa :=
      match digits with
      | first :: second :: rest => first :: '.' :: second :: rest
      | short => short
    mantissa ++ 'e' :: sign :: Nat.toDigits 10 leading.natAbs

end Decimal

namespace Binary64

/-- The text of a number: sign, then the shortest digits laid out. -/
def render (x : Binary64) : String :=
  let magnitude :=
    if x.significand = 0 then ['0', '.', '0']
    else
      let d := Decimal.shortest x
      Decimal.layout d.digitText d.leadingExponent
  String.ofList (if x.isNegative then '-' :: magnitude else magnitude)

end Binary64

end SplitBuild
