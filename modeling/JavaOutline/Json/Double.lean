/-!
# JavaOutline.Json.Double

Double-precision numbers as exact pairs of a significand and a power of two,
with the three rules a JSON document needs:

* `Double.nearest` — rounding a quotient of naturals to the nearest double, a
  half going to the even significand;
* `Double.ofDecimal` — reading a decimal by rounding its digits and scaling
  them by rounded powers of ten;
* `Double.toText` — writing the fewest digits that read back as the same
  number.

All arithmetic is exact and on `Nat`, so every rule can be computed with and
reasoned about; no machine floating point is involved.
-/

namespace JavaOutline

/-- A finite double: `significand · 2 ^ exponent`, negated when `negative`.
Zero keeps its sign. -/
structure Double where
  negative : Bool
  significand : Nat
  exponent : Int
  deriving Repr, DecidableEq, Inhabited

namespace Double

/-! ## Bounds of the format -/

/-- The exponent of the smallest positive double. -/
def minExponent : Int := -1074

/-- The largest exponent of a finite double. -/
def maxExponent : Int := 971

/-- Significands of normal doubles have this many bits. -/
def precision : Nat := 53

/-! ## Rounding a quotient -/

/-- The quotient of `num` by `den`, rounded to the nearest natural number; a
half goes to the even neighbour. -/
def divRound (num den : Nat) : Nat :=
  let q := num / den
  let twice := 2 * (num % den)
  if twice < den then q
  else if den < twice then q + 1
  else if q % 2 = 0 then q else q + 1

/-- `num / den` divided by `2 ^ exponent`, as a quotient of naturals. -/
def shifted (num den : Nat) (exponent : Int) : Nat × Nat :=
  if 0 ≤ exponent then (num, den * Nat.pow 2 exponent.toNat)
  else (num * Nat.pow 2 (-exponent).toNat, den)

/-- The exponent at which `num / den` has a significand of full precision, or
the least exponent of the format if that is larger. -/
def scaleOf (num den : Nat) : Int :=
  let guess := max ((num.log2 : Int) - (den.log2 : Int) - 52) minExponent
  let (n, d) := shifted num den guess
  if n / d < Nat.pow 2 (precision - 1) ∧ minExponent < guess then guess - 1 else guess

/-- The double nearest to `num / den`, or `none` when it is too large for any
finite double. -/
def nearest (negative : Bool) (num den : Nat) : Option Double :=
  if num = 0 then some ⟨negative, 0, minExponent⟩
  else
    let exponent := scaleOf num den
    let (n, d) := shifted num den exponent
    let m := divRound n d
    let (m, exponent) :=
      if m = Nat.pow 2 precision then (Nat.pow 2 (precision - 1), exponent + 1) else (m, exponent)
    if maxExponent < exponent then none else some ⟨negative, m, exponent⟩

/-- The magnitude of a double as a quotient of naturals. -/
def magnitude (x : Double) : Nat × Nat :=
  if 0 ≤ x.exponent then (x.significand * Nat.pow 2 x.exponent.toNat, 1)
  else (x.significand, Nat.pow 2 (-x.exponent).toNat)

/-! ## Reading a decimal -/

/-- The product of `x` and the double nearest to `10 ^ power`, rounded. -/
def timesPowerOfTen (x : Double) (power : Nat) : Option Double := do
  let p ← nearest false (Nat.pow 10 power) 1
  nearest x.negative (x.magnitude.1 * p.magnitude.1) (x.magnitude.2 * p.magnitude.2)

/-- The quotient of `x` by the double nearest to `10 ^ power`, rounded. -/
def overPowerOfTen (x : Double) (power : Nat) : Option Double := do
  let p ← nearest false (Nat.pow 10 power) 1
  nearest x.negative (x.magnitude.1 * p.magnitude.2) (x.magnitude.2 * p.magnitude.1)

/-- The largest power of ten a double holds. -/
def maxPowerOfTen : Nat := 308

/-- `x` divided `steps` times by the largest power of ten; zero stays as it
is. -/
def overMaxPowers (x : Double) : Nat → Option Double
  | 0 => some x
  | steps + 1 =>
    if x.significand = 0 then some x
    else match overPowerOfTen x maxPowerOfTen with
      | none => none
      | some y => overMaxPowers y steps

/-- `x / 10 ^ power`, in steps of at most `maxPowerOfTen` places, the last step
being the only short one. -/
def overPowersOfTen (x : Double) (power : Nat) : Option Double := do
  let steps := (power - 1) / maxPowerOfTen
  let y ← overMaxPowers x steps
  overPowerOfTen y (power - steps * maxPowerOfTen)

/-- The double read for `digits · 10 ^ exponent`: the digits are rounded to a
double first and then scaled, so the result may differ from the nearest double
in its last place. -/
def ofDecimal (negative : Bool) (digits : Nat) (exponent : Int) : Option Double := do
  let x ← nearest negative digits 1
  if exponent < 0 then overPowersOfTen x (-exponent).toNat
  else if exponent ≤ maxPowerOfTen then timesPowerOfTen x exponent.toNat
  else if x.significand = 0 then some x
  else none

/-! ## Writing the fewest digits -/

/-- Decimals as a digit string and a power of ten: `digits · 10 ^ exponent`. -/
structure Decimal where
  digits : Nat
  exponent : Int
  deriving Repr, DecidableEq

/-- A decimal as a quotient of naturals. -/
def Decimal.magnitude (d : Decimal) : Nat × Nat :=
  if 0 ≤ d.exponent then (d.digits * Nat.pow 10 d.exponent.toNat, 1)
  else (d.digits, Nat.pow 10 (-d.exponent).toNat)

/-- The end points of the reals that round to `x`, as naturals over a common
denominator: lower end, upper end, denominator. The gap below a power of two
is half as wide. -/
def interval (x : Double) : Nat × Nat × Nat :=
  let (n, d) := x.magnitude
  let unit := if 0 ≤ x.exponent then Nat.pow 2 x.exponent.toNat else 1
  let below :=
    if x.significand = Nat.pow 2 (precision - 1) ∧ minExponent < x.exponent then unit else 2 * unit
  (4 * n - below, 4 * n + 2 * unit, 4 * d)

/-- Does the decimal round to `x`? The ends of the interval belong to even
significands. -/
def readsBack (x : Double) (dec : Decimal) : Bool :=
  let (lo, hi, den) := x.interval
  let (n, d) := dec.magnitude
  if x.significand % 2 = 0 then lo * d ≤ n * den && n * den ≤ hi * d
  else lo * d < n * den && n * den < hi * d

/-- The least `p` with `x < 10 ^ p`, for positive `x`. -/
def decimalPoint (x : Double) : Int :=
  let (n, d) := x.magnitude
  let guess : Int := ((n.log2 : Int) - (d.log2 : Int)) * 30103 / 100000
  let below (p : Int) : Bool :=
    if 0 ≤ p then n < d * Nat.pow 10 p.toNat else n * Nat.pow 10 (-p).toNat < d
  (([guess - 1, guess, guess + 1].find? below).getD (guess + 2))

/-- The two neighbours of `x` on the decimal grid of step `10 ^ exponent`. -/
def neighbours (x : Double) (exponent : Int) : Decimal × Decimal :=
  let (n, d) := x.magnitude
  let q := if 0 ≤ exponent then n / (d * Nat.pow 10 exponent.toNat)
    else n * Nat.pow 10 (-exponent).toNat / d
  (⟨q, exponent⟩, ⟨q + 1, exponent⟩)

/-- Is `x` nearer to the upper neighbour than to the lower one? A tie goes to
the even digit string. -/
def prefersUpper (x : Double) (lower : Decimal) : Bool :=
  let (n, d) := x.magnitude
  let (a, b) := (Decimal.mk (2 * lower.digits + 1) lower.exponent).magnitude
  let twice := 2 * n * b
  let middle := a * d
  middle < twice || (middle == twice && lower.digits % 2 == 1)

/-- The grid point of step `10 ^ exponent` that reads back as `x`, the nearer
one if both do. -/
def onGrid? (x : Double) (exponent : Int) : Option Decimal :=
  let (lower, upper) := x.neighbours exponent
  match x.readsBack lower, x.readsBack upper with
  | true, true => some (if x.prefersUpper lower then upper else lower)
  | true, false => some lower
  | false, true => some upper
  | false, false => none

/-- The shortest decimal that reads back as the positive double `x`: grids from
one digit up to seventeen are tried in turn. -/
def shortest (x : Double) : Decimal :=
  let point := x.decimalPoint
  let grids := (List.range 17).map fun (count : Nat) => point - (count + 1 : Int)
  (grids.findSome? x.onGrid?).getD (x.neighbours (point - 17)).1

/-- Removes trailing zeros, which arise when the upper neighbour is a power of
ten. -/
def Decimal.trim (d : Decimal) : Nat → Decimal
  | 0 => d
  | fuel + 1 =>
    if d.digits ≠ 0 ∧ d.digits % 10 = 0 then
      Decimal.trim ⟨d.digits / 10, d.exponent + 1⟩ fuel
    else d

/-- How decimals are laid out: positional notation up to `largestPoint` digits
before the point and down to `smallestPoint` places after it, a power of ten
elsewhere; at least one digit after a point. -/
structure Layout where
  largestPoint : Int
  smallestPoint : Int

/-- The layout of numbers in a document. -/
def layout : Layout := ⟨16, -5⟩

/-- The text of a positive decimal in a layout. -/
def Layout.text (l : Layout) (d : Decimal) : String :=
  let digits := (toString d.digits).toList
  let zeros (n : Int) : List Char := List.replicate n.toNat '0'
  let point : Int := digits.length + d.exponent
  String.ofList <|
    if 0 ≤ d.exponent ∧ point ≤ l.largestPoint then
      digits ++ zeros d.exponent ++ ['.', '0']
    else if 0 < point ∧ point ≤ l.largestPoint then
      digits.take point.toNat ++ ['.'] ++ digits.drop point.toNat
    else if l.smallestPoint < point ∧ point ≤ 0 then
      ['0', '.'] ++ zeros (-point) ++ digits
    else
      let mantissa := match digits with
        | [] => []
        | [c] => [c]
        | c :: cs => c :: '.' :: cs
      mantissa ++ ['e'] ++ (toString (point - 1)).toList

/-- The text of a double: the fewest digits that read back as the same
number. -/
def toText (x : Double) : String :=
  let sign := if x.negative then "-" else ""
  if x.significand = 0 then sign ++ "0.0"
  else sign ++ layout.text (x.shortest.trim 20)

end Double

end JavaOutline
