import WorkloadEnv.Number.Double

/-! # Decimals read in steps

    The quick reading of a decimal: its digits as one double, times or divided
    by a power of ten that is a double as well.  Each of the steps rounds, so
    the result can miss the nearest double (`Double.ofDecimal`) by a few last
    places. -/

namespace WorkloadEnv.Double

/-! ## Products and quotients -/

/-- The magnitude of a finite double as a fraction of natural numbers. -/
def quotient (x : Double) : Nat × Nat :=
  (x.significand * pow2 x.exponent.toNat, pow2 (-x.exponent).toNat)

/-- The double nearest to the product. -/
def mul (x y : Double) : Double :=
  ofQuotient (x.isNegative != y.isNegative) (x.quotient.1 * y.quotient.1)
    (x.quotient.2 * y.quotient.2)

/-- The double nearest to the quotient by a number that is not zero. -/
def div (x y : Double) : Double :=
  ofQuotient (x.isNegative != y.isNegative) (x.quotient.1 * y.quotient.2)
    (x.quotient.2 * y.quotient.1)

/-! ## Powers of ten -/

/-- The largest power of ten that is finite as a double. -/
def largestPower : Nat := 308

/-- The double nearest to a power of ten. -/
def power10 (n : Nat) : Double := ofQuotient false (pow10 n) 1

/-- Scales a finite double by a power of ten, the largest one at a time.  A number
    that grows too large is none; zero stays zero. -/
def scale? (x : Double) (exponent : Int) : Option Double :=
  if exponent.natAbs ≤ largestPower then
    if exponent < 0 then some (x.div (power10 exponent.natAbs))
    else
      let y := x.mul (power10 exponent.natAbs)
      if y.isFinite then some y else none
  else if x.significand = 0 then some x
  else if 0 ≤ exponent then none
  else scale? (x.div (power10 largestPower)) (exponent + largestPower)
termination_by exponent.natAbs
decreasing_by simp only [largestPower] at *; omega

end WorkloadEnv.Double
