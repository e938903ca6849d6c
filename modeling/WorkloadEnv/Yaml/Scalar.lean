import WorkloadEnv.Yaml.Tag
import WorkloadEnv.Yaml.Value

/-! # Scalars

    What a scalar stands for.  A plain one without a tag is null, a boolean, a
    number or a text, by its form alone; the same rule tells the writer which
    texts need quotes.  A tag of the core types forces its type. -/

namespace WorkloadEnv.Yaml

/-- What the form of a plain scalar tells. -/
inductive Form where
  | null
  | bool (b : Bool)
  | int (n : Int)
  /-- An integer that does not fit in 64 bits but in 128. -/
  | wideInt
  | float (x : Double)
  | text
  deriving DecidableEq, Repr

namespace Form

/-! ## Integers -/

/-- The value of a digit below the base. -/
def digit? (base : Nat) (c : Char) : Option Nat :=
  let d :=
    if c.isDigit then c.toNat - 48
    else if 'a' ≤ c ∧ c ≤ 'z' then c.toNat - 87
    else if 'A' ≤ c ∧ c ≤ 'Z' then c.toNat - 55
    else base
  if d < base then some d else none

/-- The number that digits stand for, at least one of them. -/
def number? (base : Nat) (cs : List Char) : Option Nat :=
  if cs.isEmpty then none
  else cs.foldl (fun n c => do return (← n) * base + (← digit? base c)) (some 0)

/-- Two or more decimal digits of which the first is a zero, after an optional sign. -/
def hasLeadingZero (cs : List Char) : Bool :=
  let ds := match cs with
    | '-' :: cs => cs
    | '+' :: cs => cs
    | cs => cs
  match ds with
  | '0' :: d :: ds => (d :: ds).all Char.isDigit
  | _ => false

/-- A number in base 16, 8 or 2 after its mark, else in base 10. -/
def magnitude? (cs : List Char) : Option Nat :=
  match cs with
  | '0' :: 'x' :: ds => number? 16 ds
  | '0' :: 'o' :: ds => number? 8 ds
  | '0' :: 'b' :: ds => number? 2 ds
  | ds => if hasLeadingZero ds then none else number? 10 ds

/-- An integer after an optional sign. -/
def integer? (cs : List Char) : Option Int :=
  match cs with
  | '+' :: cs => (magnitude? cs).map Int.ofNat
  | '-' :: cs => (magnitude? cs).map fun n => -(n : Int)
  | cs => (magnitude? cs).map Int.ofNat

/-- An integer by its width: 64 bits, 128 bits, or wider. -/
def ofInteger? (n : Int) : Option Form :=
  if IntRange.fits 64 n then some (.int n)
  else if IntRange.fits 128 n then some .wideInt
  else none

/-! ## Floating-point numbers -/

/-- The power of ten at the end of a decimal: nothing, or `e` and an integer. -/
def exponent? (cs : List Char) : Option Int :=
  match cs with
  | [] => some 0
  | c :: cs =>
    if c = 'e' ∨ c = 'E' then
      match cs with
      | '+' :: ds => (number? 10 ds).map Int.ofNat
      | '-' :: ds => (number? 10 ds).map fun n => -(n : Int)
      | ds => (number? 10 ds).map Int.ofNat
    else none

/-- A decimal without a sign: digits before and after the point, not none in all. -/
def decimal? (negative : Bool) (cs : List Char) : Option Double := do
  let whole := cs.takeWhile Char.isDigit
  let rest := cs.dropWhile Char.isDigit
  let (places, rest) := match rest with
    | '.' :: rest => (rest.takeWhile Char.isDigit, rest.dropWhile Char.isDigit)
    | rest => ([], rest)
  let digits ← number? 10 (whole ++ places)
  let exponent ← exponent? rest
  return Double.ofDecimal negative digits (exponent - places.length)

/-- A decimal after an optional sign. -/
def signedDecimal? (cs : List Char) : Option Double :=
  match cs with
  | '+' :: cs => decimal? false cs
  | '-' :: cs => decimal? true cs
  | cs => decimal? false cs

/-- A floating-point number: an infinity, not a number, or a finite decimal. -/
def float? (s : String) : Option Double :=
  if [".inf", ".Inf", ".INF", "+.inf", "+.Inf", "+.INF"].contains s then some (.infinity false)
  else if ["-.inf", "-.Inf", "-.INF"].contains s then some (.infinity true)
  else if [".nan", ".NaN", ".NAN"].contains s then some .notANumber
  else (signedDecimal? s.toList).filter Double.isFinite

/-! ## All forms -/

def bool? (s : String) : Option Bool :=
  if ["true", "True", "TRUE"].contains s then some true
  else if ["false", "False", "FALSE"].contains s then some false
  else none

def isNull (s : String) : Bool := ["null", "Null", "NULL", "~"].contains s

/-- What a plain scalar is by its form. -/
def ofPlain (s : String) : Form :=
  if s = "" || isNull s then .null
  else match bool? s with
    | some b => .bool b
    | none =>
      match (integer? s.toList).bind ofInteger? with
      | some form => form
      | none =>
        if hasLeadingZero s.toList then .text
        else match float? s with
          | some x => .float x
          | none => .text

/-- The value of a plain scalar of the given text; a wide integer has none. -/
def value? (s : String) : Form → Option Value
  | null => some .null
  | bool b => some (.bool b)
  | int n => some (.int n)
  | wideInt => none
  | float x => some (.float x)
  | text => some (.text s)

end Form

/-! ## Values -/

/-- The value of a scalar by its form, if it is plain, else as a text. -/
def formValue? (plain : Bool) (s : String) : Option Value :=
  if plain then (Form.ofPlain s).value? s else some (.text s)

/-- The value of a scalar; none if it does not fit its tag or is too wide an integer. -/
def scalarValue? (tag : Option Tag) (plain : Bool) (s : String) : Option Value :=
  match TagKind.of tag with
  | .none => formValue? plain s
  | .own name => (formValue? plain s).map (.tagged name)
  | .bool => (Form.bool? s).map .bool
  | .int => ((Form.integer? s.toList).bind Form.ofInteger?).bind (Form.value? s)
  | .float => (Form.float? s).map .float
  | .null => if Form.isNull s then some .null else none
  | .other => some (.text s)

end WorkloadEnv.Yaml
