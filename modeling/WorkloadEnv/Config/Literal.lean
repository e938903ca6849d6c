import WorkloadEnv.Decode.Source

/-! # Literals

    The types a configuration value may have, the texts that stand for their
    values, and their JSON form. -/

namespace WorkloadEnv

/-- A configuration value. -/
inductive Literal where
  | int (n : Int)
  | bool (b : Bool)
  | char (c : Char)
  | text (s : String)
  deriving DecidableEq, Repr

/-- The type of a configuration value. -/
inductive LiteralType where
  | int32
  | int64
  | uint8
  | bool
  | char
  | text
  deriving DecidableEq, Repr

namespace LiteralType

/-! ## Bounds -/

/-- The name and the range of an integer type. -/
def bounds? : LiteralType → Option (String × IntRange)
  | int32 => some ("i32", .signed 32)
  | int64 => some ("i64", .signed 64)
  | uint8 => some ("u8", .unsigned 8)
  | _ => none

/-! ## Texts -/

/-- Decimal digits, at least one. -/
def digits? (cs : List Char) : Option Nat :=
  if cs ≠ [] ∧ cs.all Char.isDigit then
    some (cs.foldl (fun n d => 10 * n + (d.toNat - 48)) 0)
  else none

/-- An integer within bounds: digits after an optional sign.  A minus counts as a
    sign only where there are negative values. -/
def parseInt (range : IntRange) (cs : List Char) : Option Int := do
  let n : Int ← match cs with
    | '+' :: cs => (digits? cs).map Int.ofNat
    | '-' :: cs => if range.low < 0 then (digits? cs).map fun n => -(n : Int) else none
    | cs => (digits? cs).map Int.ofNat
  if range.contains n then some n else none

/-- The value a text stands for. -/
def parse (type : LiteralType) (s : String) : Option Literal :=
  match type, type.bounds? with
  | _, some (_, range) => (parseInt range s.toList).map .int
  | bool, none =>
    if s = "true" then some (.bool true) else if s = "false" then some (.bool false) else none
  | char, none =>
    match s.toList with
    | [c] => some (.char c)
    | _ => none
  | _, none => some (.text s)

/-! ## JSON -/

/-- The value in JSON. -/
def read (type : LiteralType) (j : Json) : Except DecodeError Literal :=
  match type, type.bounds?, j with
  | _, some (name, range), .int n =>
    if range.contains n then .ok (.int n) else .error (.wrongValue (.int n) name)
  | _, some (name, _), j => .error (.wrongType j.layer.found name)
  | bool, none, .bool b => .ok (.bool b)
  | bool, none, j => .error (.wrongType j.layer.found "a boolean")
  | char, none, .text s =>
    match s.toList with
    | [c] => .ok (.char c)
    | _ => .error (.wrongValue (.text s) "a character")
  | char, none, j => .error (.wrongType j.layer.found "a character")
  | _, none, .text s => .ok (.text s)
  | _, none, j => .error (.wrongType j.layer.found "a string")

end LiteralType

/-- A value in JSON; a character is a text of one. -/
def Literal.toJson : Literal → Json
  | int n => .int n
  | bool b => .bool b
  | char c => .text (String.singleton c)
  | text s => .text s

end WorkloadEnv
