import WorkloadEnv.Number.Range

/-! # Double-precision numbers

    A number of the binary interchange format of 64 bits, given by its bits.
    A finite one is `± significand * 2 ^ exponent`, and that is all the rest of
    the library knows of it: these numbers are read from decimal text, rounded
    once (`Double.ofDecimal`) or in steps (see `Number/Stepwise`), and written
    back (see `Number/Shortest`). -/

namespace WorkloadEnv

/-- A number of the 64-bit binary format, by its bits. -/
structure Double where
  bits : UInt64
  deriving DecidableEq, Repr

namespace Double

/-! ## The parts of the format -/

/-- The sign bit. -/
def isNegative (x : Double) : Bool := x.bits.toNat / pow2 63 == 1

/-- The eleven bits of the biased exponent. -/
def exponentField (x : Double) : Nat := x.bits.toNat / pow2 52 % pow2 11

/-- The fifty-two bits after the leading one. -/
def fraction (x : Double) : Nat := x.bits.toNat % pow2 52

/-- The largest exponent field is kept for the infinities and for no number at all. -/
def isFinite (x : Double) : Bool := x.exponentField < 2047

/-- The integer `m` of the value `± m * 2 ^ exponent`. -/
def significand (x : Double) : Nat :=
  if x.exponentField = 0 then x.fraction else x.fraction + pow2 52

/-- The power of two of the value `± significand * 2 ^ exponent`. -/
def exponent (x : Double) : Int := (max x.exponentField 1 : Nat) - 1075

/-- The number with the given sign, exponent field and fraction. -/
def ofFields (negative : Bool) (exponentField fraction : Nat) : Double :=
  ⟨UInt64.ofNat ((if negative then pow2 63 else 0) + exponentField * pow2 52 + fraction)⟩

def zero (negative : Bool) : Double := ofFields negative 0 0

def infinity (negative : Bool) : Double := ofFields negative 2047 0

/-- The quiet value that stands for no number. -/
def notANumber : Double := ofFields false 2047 (pow2 51)

/-- Is the value one that compares equal to nothing? -/
def isNotANumber (x : Double) : Bool := x.exponentField == 2047 && x.fraction != 0

/-- Equality of numbers as keys: both zeros are one, and what is no number equals itself. -/
def sameNumber (x y : Double) : Bool :=
  x == y || (x.isNotANumber && y.isNotANumber) ||
    (x.bits.toNat % pow2 63 == 0 && y.bits.toNat % pow2 63 == 0)

/-! ## From decimal text -/

/-- `num / den` rounded to the nearest integer, a tie to the even one. -/
def roundQuotient (num den : Nat) : Nat :=
  let q := num / den
  let r := num % den
  if 2 * r < den then q else if den < 2 * r then q + 1 else q + q % 2

/-- `num / (den * 2 ^ q)` as a fraction of natural numbers. -/
def scaleDown (num den : Nat) (q : Int) : Nat × Nat :=
  if 0 ≤ q then (num, den * pow2 q.toNat) else (num * pow2 (-q).toNat, den)

/-- The exponent of the last place of a double near `num / den`: 53 binary
    places, fewer where the format has no smaller exponent. -/
def lastPlace (num den : Nat) : Int :=
  let guess : Int := (Nat.log2 num : Int) - (Nat.log2 den : Int) - 53
  let (n, d) := scaleDown num den guess
  max (if pow2 53 ≤ n / d then guess + 1 else guess) (-1074)

/-- The double nearest to `± num / den`, a tie to the even one. -/
def ofQuotient (negative : Bool) (num den : Nat) : Double :=
  if num = 0 then zero negative else
  let q := lastPlace num den
  let (n, d) := scaleDown num den q
  let m := roundQuotient n d
  let (m, q) := if m = pow2 53 then (pow2 52, q + 1) else (m, q)
  if m < pow2 52 then ofFields negative 0 m
  else if 971 < q then infinity negative
  else ofFields negative (q + 1075).toNat (m - pow2 52)

/-- The double nearest to `± digits * 10 ^ exponent`.  Beyond 310 places the
    value is an infinity, below -400 a zero, so no such power is computed. -/
def ofDecimal (negative : Bool) (digits : Nat) (exponent : Int) : Double :=
  if digits = 0 then zero negative
  else if 310 < exponent then infinity negative
  else if exponent < -400 - ((Nat.toDigits 10 digits).length : Int) then zero negative
  else if 0 ≤ exponent then ofQuotient negative (digits * pow10 exponent.toNat) 1
  else ofQuotient negative digits (pow10 (-exponent).toNat)

end Double

end WorkloadEnv
