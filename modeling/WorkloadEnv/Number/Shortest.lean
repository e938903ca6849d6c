import WorkloadEnv.Number.Double

/-! # The shortest decimal that reads back

    Every finite double has an interval of reals that round to it.  Among the
    decimals of that interval this module picks one with the fewest digits, and
    of those the nearest to the double: on the grid of `k` digits only the two
    neighbours of the value have to be looked at, for if any point of the grid
    is in the interval, one of the two is. -/

namespace WorkloadEnv

/-- The decimal `digits * 10 ^ exponent`. -/
structure Decimal where
  digits : Nat
  exponent : Int
  deriving DecidableEq, Repr

/-- Drops up to `n` zeros at the end. -/
def Decimal.trimmed (d : Decimal) : Nat → Decimal
  | 0 => d
  | n + 1 =>
    if d.digits % 10 = 0 ∧ d.digits ≠ 0 then
      Decimal.trimmed ⟨d.digits / 10, d.exponent + 1⟩ n
    else d

namespace Double

/-! ## Choosing the digits -/

/-- The reals that round to a double, in units of a quarter of its last place:
    the value, both ends of the interval, and whether the ends belong to it. -/
structure Rounding where
  value : Nat
  low : Nat
  high : Nat
  closed : Bool
  /-- Units of `2 ^ scale`. -/
  scale : Int

/-- Below a power of two the neighbours are half as far away. -/
def rounding (x : Double) : Rounding :=
  let m := x.significand
  { value := 4 * m
    low := if x.fraction = 0 ∧ 1 < x.exponentField then 4 * m - 1 else 4 * m - 2
    high := 4 * m + 2
    closed := m % 2 = 0
    scale := x.exponent - 2 }

/-- Compares `a * 10 ^ p` with `b * 2 ^ q`. -/
def compareScaled (a : Nat) (p : Int) (b : Nat) (q : Int) : Ordering :=
  let left := a * pow10 p.toNat * pow2 (-q).toNat
  let right := b * pow2 q.toNat * pow10 (-p).toNat
  compare left right

/-- Does the decimal round to the double? -/
def Rounding.holds (r : Rounding) (d : Decimal) : Bool :=
  let below := compareScaled d.digits d.exponent r.low r.scale
  let above := compareScaled d.digits d.exponent r.high r.scale
  (below == .gt || (r.closed && below == .eq)) && (above == .lt || (r.closed && above == .eq))

/-- The value divided by `10 ^ p`, rounded down. -/
def Rounding.floorAt (r : Rounding) (p : Int) : Nat :=
  (r.value * pow2 r.scale.toNat * pow10 (-p).toNat) / (pow10 p.toNat * pow2 (-r.scale).toNat)

/-- Is the value nearer to `n + 1` than to `n`, in units of `10 ^ p`?  A value
    half-way goes to the even one. -/
def Rounding.nearerAbove (r : Rounding) (n : Nat) (p : Int) : Bool :=
  let half := compareScaled (2 * n + 1) p (2 * r.value) r.scale
  half == .lt || (half == .eq && n % 2 = 1)

/-- The point of the grid `10 ^ p` that rounds to the double and is nearest to it, if one does. -/
def Rounding.onGrid (r : Rounding) (p : Int) : Option Decimal :=
  let n := r.floorAt p
  let down : Decimal := ⟨n, p⟩
  let up : Decimal := ⟨n + 1, p⟩
  match r.holds down, r.holds up with
  | true, true => some (if r.nearerAbove n p then up else down)
  | true, false => some down
  | false, true => some up
  | false, false => none

/-- The first hit on the grids `p`, `p - 1` and so on, `n` of them. -/
def Rounding.firstHit (r : Rounding) (p : Int) : Nat → Decimal
  | 0 => ⟨r.floorAt p, p⟩
  | n + 1 => (r.onGrid p).getD (r.firstHit (p - 1) n)

/-- The exponent of the power of ten above the value. -/
def Rounding.magnitude (r : Rounding) : Int :=
  let whole := r.floorAt 0
  if 0 < whole then (Nat.toDigits 10 whole).length
  else
    let places := (r.value * pow2 r.scale.toNat * pow10 400) / pow2 (-r.scale).toNat
    ((Nat.toDigits 10 places).length : Int) - 400

/-- The shortest decimal that reads back as the double, its sign aside.
    Seventeen digits are always enough. -/
def shortest (x : Double) : Decimal :=
  if x.significand = 0 then ⟨0, 0⟩
  else
    let r := x.rounding
    (r.firstHit (r.magnitude - 1) 17).trimmed 17

end Double

end WorkloadEnv
