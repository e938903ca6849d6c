import WorkloadEnv.Number.Shortest

/-! # Written numbers

    The shortest decimal of a double laid out as text, in two forms.  The
    compact form goes by position from `1e-5` up to `1e16` and has an exponent
    outside, the positional form has none at all.  In data files a large
    exponent has no sign, in messages it has one.  Both forms have a decimal
    point wherever they have no exponent, so that a double is never taken for
    an integer. -/

namespace WorkloadEnv

namespace Decimal

/-- Where the decimal point goes, counted from the first digit. -/
def pointPlace (d : Decimal) : Int := (Nat.toDigits 10 d.digits).length + d.exponent

/-- All digits by position, at least one of them after the point. -/
def positional (d : Decimal) : List Char :=
  let ds := Nat.toDigits 10 d.digits
  let k := d.pointPlace
  if 0 ≤ d.exponent then ds ++ List.replicate d.exponent.toNat '0' ++ ['.', '0']
  else if 0 < k then ds.take k.toNat ++ '.' :: ds.drop k.toNat
  else ['0', '.'] ++ List.replicate (-k).toNat '0' ++ ds

/-- One digit before the point, which is left out with nothing after it.  With
    `plus` an exponent that is not negative has a sign too. -/
def scientific (plus : Bool) (d : Decimal) : List Char :=
  let ds := Nat.toDigits 10 d.digits
  let mantissa := if ds.length = 1 then ds else ds.take 1 ++ '.' :: ds.drop 1
  let exponent := d.pointPlace - 1
  let sign := if plus && 0 ≤ exponent then ['+'] else []
  mantissa ++ 'e' :: (sign ++ (toString exponent).toList)

/-- By position from `1e-5` up to `1e16`, else with an exponent. -/
def compact (plus : Bool) (d : Decimal) : List Char :=
  if -5 < d.pointPlace ∧ d.pointPlace ≤ 16 then d.positional else d.scientific plus

end Decimal

namespace Double

private def signed (x : Double) (layout : Decimal → List Char) : String :=
  String.ofList ((if x.isNegative then ['-'] else []) ++ layout x.shortest)

/-- The compact text of a finite double, such as `1.5`, `100.0` and `1e21`. -/
def compact (x : Double) : String := signed x (Decimal.compact false)

/-- The compact text with a sign at every exponent, such as `1e+21`. -/
def compactSigned (x : Double) : String := signed x (Decimal.compact true)

/-- The text of a finite double without an exponent. -/
def positional (x : Double) : String := signed x Decimal.positional

end Double

end WorkloadEnv
