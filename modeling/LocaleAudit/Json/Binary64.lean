namespace LocaleAudit

/-!
# Double precision numbers

A finite double is `±significand · 2 ^ exponent` with at most 53 bits and an exponent of at least
-1074. Products and quotients are rounded to the nearest double, a tie to the even significand, in
exact arithmetic.
-/

structure Binary64 where
  negative : Bool
  significand : Nat
  exponent : Int
  deriving DecidableEq, Repr

namespace Binary64

def zero (negative : Bool) : Binary64 :=
  ⟨negative, 0, -1074⟩

def isZero (x : Binary64) : Bool :=
  x.significand == 0

def twoPow (k : Nat) : Nat :=
  Nat.pow 2 k

def tenPow (k : Nat) : Nat :=
  Nat.pow 10 k

/-- The least significand of 53 bits, and the first that has more. -/
def leastFull : Nat := twoPow 52

def overflow : Nat := twoPow 53

/-- The exponent at which `num / den` has 53 bits, or the least exponent. -/
def exponentFor (num den : Nat) : Int :=
  let e : Int := (num.log2 : Int) - den.log2
  let e := if den * twoPow e.toNat ≤ num * twoPow (-e).toNat then e else e - 1
  max (e - 52) (-1074)

/-- The integer nearest to `num / den`, a tie going to the even one. -/
def nearest (num den : Nat) : Nat :=
  let q := num / den
  let r := num % den
  if 2 * r > den ∨ (2 * r = den ∧ q % 2 = 1) then q + 1 else q

/-- The double nearest to `num / den`; nothing beyond the largest double. -/
def ofRatio? (negative : Bool) (num den : Nat) : Option Binary64 :=
  if num = 0 then some (zero negative)
  else
    let e := exponentFor num den
    let m := nearest (num * twoPow (-e).toNat) (den * twoPow e.toNat)
    let (m, e) := if m = overflow then (leastFull, e + 1) else (m, e)
    if e > 971 then none else some ⟨negative, m, e⟩

def ratio (x : Binary64) : Nat × Nat :=
  (x.significand * twoPow x.exponent.toNat, twoPow (-x.exponent).toNat)

def mul? (x y : Binary64) : Option Binary64 :=
  ofRatio? (x.negative != y.negative) (x.ratio.1 * y.ratio.1) (x.ratio.2 * y.ratio.2)

def div? (x y : Binary64) : Option Binary64 :=
  ofRatio? (x.negative != y.negative) (x.ratio.1 * y.ratio.2) (x.ratio.2 * y.ratio.1)

def tenPower? (k : Nat) : Option Binary64 :=
  ofRatio? false (tenPow k) 1

/-- `x · 10 ^ k` by one rounded product with a rounded power of ten, or by one rounded quotient;
powers below the range are taken in steps of 308. -/
def scale? (x : Binary64) (k : Int) : Option Binary64 :=
  if 0 ≤ k then
    if x.isZero then some x
    else if 308 < k then none
    else (tenPower? k.toNat).bind x.mul?
  else if h : k < -308 then
    if x.isZero then some x
    else ((tenPower? 308).bind x.div?).bind (scale? · (k + 308))
  else (tenPower? (-k).toNat).bind x.div?
  termination_by k.natAbs
  decreasing_by omega

/-- The multiples of one power of ten beside a double, on a common integer scale: the distance of
two multiples, the double, and the ends of the interval that rounds to it. -/
structure Grid where
  step : Nat
  lower : Nat
  middle : Nat
  upper : Nat
  closed : Bool

def grid (x : Binary64) (k : Int) : Grid :=
  let s := x.exponent - 2
  let unit := twoPow s.toNat * tenPow (-k).toNat
  let below := if x.significand = leastFull ∧ x.exponent > -1074 then 1 else 2
  { step := tenPow k.toNat * twoPow (-s).toNat
    lower := (4 * x.significand - below) * unit
    middle := 4 * x.significand * unit
    upper := (4 * x.significand + 2) * unit
    closed := x.significand % 2 == 0 }

def Grid.holds (g : Grid) (candidate : Nat) : Bool :=
  let place := candidate * g.step
  if g.closed then g.lower ≤ place && place ≤ g.upper else g.lower < place && place < g.upper

/-- The multiple that reads back as the double: of two the nearer, of two equally near the even
one. -/
def Grid.pick? (g : Grid) : Option Nat :=
  let below := g.middle / g.step
  let above := below + 1
  match g.holds below, g.holds above with
  | false, false => none
  | true, false => some below
  | false, true => some above
  | true, true =>
    let toBelow := g.middle - below * g.step
    let toAbove := above * g.step - g.middle
    if toBelow < toAbove || (toBelow == toAbove && below % 2 == 0) then some below else some above

/-- The first grid, from `k` down, with a multiple that reads back. -/
def shortestFrom (x : Binary64) : Nat → Int → Nat × Int
  | 0, k => (((x.grid k).middle / (x.grid k).step), k)
  | steps + 1, k =>
    match (x.grid k).pick? with
    | some candidate => if candidate = 0 then shortestFrom x steps (k - 1) else (candidate, k)
    | none => shortestFrom x steps (k - 1)

/-- The fewest decimal digits that read back as a positive double, and the power of ten of the
last digit. -/
def shortest (x : Binary64) : Nat × Int :=
  let magnitude := ((x.significand.log2 : Int) + x.exponent) * 30103 / 100000
  shortestFrom x 40 (magnitude + 2)

end Binary64

end LocaleAudit
