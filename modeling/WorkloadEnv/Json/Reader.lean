import WorkloadEnv.Json.Basic
import WorkloadEnv.Decode.Error
import WorkloadEnv.Number.Stepwise

/-! # Reading JSON text

    Readers take what is left of the bytes of a text and give a value and the
    new rest.  An error keeps the rest where it was met, and only at the end is
    that turned into a line and a column (`TextError`), counted in bytes.  An
    integer that fits in 64 bits, signed or not, stays an integer; any other
    number, `-0` too, is a double that is read in steps. -/

namespace WorkloadEnv.Json

/-! ## Errors -/

/-- Why a text is no JSON value, or not the value that was asked for. -/
inductive TextFault where
  | endInValue
  | endInText
  | endInList
  | endInObject
  | expectedColon
  | expectedListEnd
  | expectedObjectEnd
  | expectedIdent
  | expectedValue
  | badEscape
  | badNumber
  | numberTooLarge
  | controlCharacter
  | nameNotText
  | loneSurrogate
  | halfSurrogatePair
  | trailingComma
  | trailingCharacters
  | notNull (found : Found)
  deriving DecidableEq, Repr

def TextFault.message : TextFault → String
  | endInValue => "EOF while parsing a value"
  | endInText => "EOF while parsing a string"
  | endInList => "EOF while parsing a list"
  | endInObject => "EOF while parsing an object"
  | expectedColon => "expected `:`"
  | expectedListEnd => "expected `,` or `]`"
  | expectedObjectEnd => "expected `,` or `\x7d`"
  | expectedIdent => "expected ident"
  | expectedValue => "expected value"
  | badEscape => "invalid escape"
  | badNumber => "invalid number"
  | numberTooLarge => "number out of range"
  | controlCharacter => "control character (\\u0000-\\u001F) found while parsing a string"
  | nameNotText => "key must be a string"
  | loneSurrogate => "lone leading surrogate in hex escape"
  | halfSurrogatePair => "unexpected end of hex escape"
  | trailingComma => "trailing comma"
  | trailingCharacters => "trailing characters"
  | notNull found => "invalid type: " ++ found.describe .json ++ ", expected unit"

/-- An error and its place: the line, and how many bytes of the line were read. -/
structure TextError where
  fault : TextFault
  line : Nat
  column : Nat
  deriving DecidableEq, Repr

def TextError.message (e : TextError) : String :=
  e.fault.message ++ " at line " ++ toString e.line ++ " column " ++ toString e.column

/-- An error as a reader meets it: what was left of the text, and whether the
    next byte was only looked at. -/
structure Stop where
  fault : TextFault
  rest : List UInt8
  peeked : Bool

/-- Line and column after the given bytes. -/
def placeAfter (read : List UInt8) : Nat × Nat :=
  read.foldl (fun p b => if Char.ofUInt8 b = '\n' then (p.1 + 1, 0) else (p.1, p.2 + 1)) (1, 0)

/-- The place of an error in the whole text.  A byte only looked at counts as read. -/
def Stop.locate (all : List UInt8) (s : Stop) : TextError :=
  let left := if s.peeked then s.rest.drop 1 else s.rest
  let (line, column) := placeAfter (all.take (all.length - left.length))
  ⟨s.fault, line, column⟩

/-- A reader takes what is left of the text. -/
abbrev Reader (α : Type) := List UInt8 → Except Stop (α × List UInt8)

/-- Fails after what was read. -/
def failAt {α : Type} (fault : TextFault) (rest : List UInt8) : Except Stop α :=
  .error ⟨fault, rest, false⟩

/-- Fails at the next byte. -/
def failPeeking {α : Type} (fault : TextFault) (rest : List UInt8) : Except Stop α :=
  .error ⟨fault, rest, true⟩

/-! ## Blanks and literals -/

/-- The next byte, as a character. -/
def peek (bs : List UInt8) : Option Char := bs.head?.map Char.ofUInt8

def isBlank (c : Char) : Bool := c = ' ' || c = '\n' || c = '\t' || c = '\r'

def skipBlanks (bs : List UInt8) : List UInt8 := bs.dropWhile fun b => isBlank (Char.ofUInt8 b)

/-- Reads the given characters. -/
def expectIdent : List Char → Reader Unit
  | [], bs => .ok ((), bs)
  | _ :: _, [] => failAt .endInValue []
  | w :: ws, b :: bs => if Char.ofUInt8 b = w then expectIdent ws bs else failAt .expectedIdent bs

/-! ## Numbers -/

def isDigit (b : UInt8) : Bool := (Char.ofUInt8 b).isDigit

/-- The longest run of decimal digits and what follows it. -/
def spanDigits (bs : List UInt8) : List UInt8 × List UInt8 :=
  (bs.takeWhile isDigit, bs.dropWhile isDigit)

/-- Appends decimal digits to a number as long as it stays below a bound, and
    counts them. -/
def appendDigits (bound n : Nat) : List UInt8 → Nat × Nat
  | [] => (n, 0)
  | d :: ds =>
    let next := 10 * n + (d.toNat - 48)
    if next < bound then
      let (total, count) := appendDigits bound next ds
      (total, count + 1)
    else (n, 0)

/-- The digits before the point: a zero stands alone. -/
def readWhole : Reader (List UInt8)
  | [] => failAt .endInValue []
  | b :: bs =>
    if Char.ofUInt8 b = '0' then
      if (peek bs).any Char.isDigit then failPeeking .badNumber bs else .ok ([b], bs)
    else if isDigit b then
      let (ds, rest) := spanDigits bs
      .ok (b :: ds, rest)
    else failAt .badNumber bs

/-- The digits after the point, if there is one. -/
def readFraction : Reader (Option (List UInt8)) := fun bs =>
  if peek bs = some '.' then
    match spanDigits (bs.drop 1) with
    | ([], []) => failPeeking .endInValue []
    | ([], rest) => failPeeking .badNumber rest
    | (ds, rest) => .ok (some ds, rest)
  else .ok (none, bs)

/-- The sign of an exponent, if it has one: is it negative? -/
def takeSign (bs : List UInt8) : Bool × List UInt8 :=
  if peek bs = some '-' then (true, bs.drop 1)
  else if peek bs = some '+' then (false, bs.drop 1)
  else (false, bs)

/-- The power of ten, if there is one.  An exponent of more than 31 bits is an
    error at the digit that makes it one, if the number is too large with it; else
    it is cut off there. -/
def readExponent (isZero : Bool) : Reader (Option Int) := fun bs =>
  if peek bs = some 'e' ∨ peek bs = some 'E' then
    let (negative, bs) := takeSign (bs.drop 1)
    match bs with
    | [] => failAt .endInValue []
    | d :: rest =>
      if isDigit d then
        let (ds, rest) := spanDigits bs
        let (n, count) := appendDigits (pow2 31) 0 ds
        if count < ds.length && !negative && !isZero then
          failAt .numberTooLarge (bs.drop (count + 1))
        else .ok (some (if negative then -(n : Int) else n), rest)
      else failAt .badNumber rest
  else .ok (none, bs)

/-- A number without point and exponent that has at most 64 bits: an integer, but
    a double if it is zero with a minus or less than a signed integer can be. -/
def ofInteger (negative : Bool) (n : Nat) : Json :=
  if !negative then .int n
  else if n = 0 ∨ pow2 63 < n then .float (Double.ofQuotient true n 1)
  else .int (-(n : Int))

/-- A number after its sign.  Digits count as long as they fit in 64 bits; the
    others only tell how large the number is, and after the point not even that. -/
def readNumber (negative : Bool) : Reader Json := fun bs => do
  let (whole, bs) ← readWhole bs
  let (n, count) := appendDigits (pow2 64) 0 whole
  let left := whole.length - count
  let (fraction, bs) ← readFraction bs
  let (n, places) := appendDigits (pow2 64) n (fraction.getD [])
  let (exponent, bs) ← readExponent (n == 0) bs
  if fraction = none ∧ exponent = none ∧ left = 0 then .ok (ofInteger negative n, bs)
  else
    match (Double.ofQuotient negative n 1).scale? (left - places + exponent.getD 0) with
    | some x => .ok (.float x, bs)
    | none => failAt .numberTooLarge bs

/-! ## Text -/

/-- The value of a hexadecimal digit. -/
def hexDigit? (c : Char) : Option Nat :=
  if c.isDigit then some (c.toNat - 48)
  else if 'a' ≤ c ∧ c ≤ 'f' then some (c.toNat - 87)
  else if 'A' ≤ c ∧ c ≤ 'F' then some (c.toNat - 55)
  else none

/-- Four hexadecimal digits; four bytes are taken in any case. -/
def readHex4 : Reader Nat := fun bs =>
  if (bs.take 4).length < 4 then failAt .endInText []
  else
    let number := (bs.take 4).foldl
      (fun n b => do return (← n) * 16 + (← hexDigit? (Char.ofUInt8 b))) (some 0)
    match number with
    | some n => .ok (n, bs.drop 4)
    | none => failAt .badEscape (bs.drop 4)

def isLeading (n : Nat) : Bool := 0xD800 ≤ n && n ≤ 0xDBFF

def isTrailing (n : Nat) : Bool := 0xDC00 ≤ n && n ≤ 0xDFFF

/-- The given character of the second half of a surrogate pair. -/
def expectHalf (c : Char) : Reader Unit
  | [] => failAt .endInText []
  | b :: bs => if Char.ofUInt8 b = c then .ok ((), bs) else failPeeking .halfSurrogatePair (b :: bs)

/-- The character of a `\u` escape, after the `u`: one code unit, or a pair of surrogates. -/
def readCodeUnits : Reader Char := fun bs => do
  let (n, bs) ← readHex4 bs
  if isTrailing n then failAt .loneSurrogate bs
  else if isLeading n then
    let (_, bs) ← expectHalf '\\' bs
    let (_, bs) ← expectHalf 'u' bs
    let (m, bs) ← readHex4 bs
    if isTrailing m then .ok (Char.ofNat (0x10000 + (n - 0xD800) * 0x400 + (m - 0xDC00)), bs)
    else failAt .loneSurrogate bs
  else .ok (Char.ofNat n, bs)

/-- The character of an escape, after the backslash. -/
def readEscape : Reader Char
  | [] => failAt .endInText []
  | b :: bs =>
    match Char.ofUInt8 b with
    | 'u' => readCodeUnits bs
    | '"' => .ok ('"', bs)
    | '\\' => .ok ('\\', bs)
    | '/' => .ok ('/', bs)
    | 'b' => .ok ('\x08', bs)
    | 'f' => .ok ('\x0c', bs)
    | 'n' => .ok ('\n', bs)
    | 'r' => .ok ('\r', bs)
    | 't' => .ok ('\t', bs)
    | _ => failAt .badEscape bs

/-- The text of bytes.  An escape is whole characters and so is all between two
    of them, hence what stands in quotes in a text is one. -/
def ofBytes (bs : List UInt8) : String := (String.fromUTF8? bs.toByteArray).getD ""

/-- The text up to the closing quote, from its bytes so far in reverse.  `fuel`
    bounds the number of bytes. -/
def readQuoted : Nat → List UInt8 → Reader String
  | 0, _, bs => failAt .endInText bs
  | _, _, [] => failAt .endInText []
  | fuel + 1, acc, b :: bs =>
    if Char.ofUInt8 b = '"' then .ok (ofBytes acc.reverse, bs)
    else if Char.ofUInt8 b = '\\' then do
      let (e, bs) ← readEscape bs
      readQuoted fuel ((String.utf8EncodeChar e).reverse ++ acc) bs
    else if b < 0x20 then failAt .controlCharacter bs
    else readQuoted fuel (b :: acc) bs

/-- A text after its opening quote. -/
def readText : Reader String := fun bs => readQuoted (bs.length + 1) [] bs

/-! ## Values -/

/-- The name of a member and the colon after it. -/
def readName : Reader String := fun bs =>
  match peek bs with
  | none => failPeeking .endInObject []
  | some '"' => do
    let (name, bs) ← readText (bs.drop 1)
    let bs := skipBlanks bs
    match peek bs with
    | none => failPeeking .endInObject []
    | some ':' => .ok (name, bs.drop 1)
    | some _ => failPeeking .expectedColon bs
  | some _ => failPeeking .nameNotText bs

mutual

/-- One value; `fuel` bounds the number of readers below one another. -/
def readValue : Nat → Reader Json
  | 0, bs => failPeeking .expectedValue bs
  | fuel + 1, bs =>
    let bs := skipBlanks bs
    match bs with
    | [] => failPeeking .endInValue []
    | b :: rest =>
      match Char.ofUInt8 b with
      | 'n' => (expectIdent ['u', 'l', 'l'] rest).map fun r => (.null, r.2)
      | 't' => (expectIdent ['r', 'u', 'e'] rest).map fun r => (.bool true, r.2)
      | 'f' => (expectIdent ['a', 'l', 's', 'e'] rest).map fun r => (.bool false, r.2)
      | '-' => readNumber true rest
      | '"' => (readText rest).map fun r => (.text r.1, r.2)
      | '[' =>
        let rest := skipBlanks rest
        if peek rest = some ']' then .ok (.list [], rest.drop 1)
        else (readItems fuel rest).map fun r => (.list r.1, r.2)
      | '\x7b' =>
        let rest := skipBlanks rest
        if peek rest = some '\x7d' then .ok (.object [], rest.drop 1)
        else (readMembers fuel [] rest).map fun r => (.object r.1, r.2)
      | c => if c.isDigit then readNumber false bs else failPeeking .expectedValue bs

/-- The items of a list up to its end, at least one. -/
def readItems : Nat → Reader (List Json)
  | 0, bs => failPeeking .endInList bs
  | fuel + 1, bs => do
    let (j, bs) ← readValue fuel bs
    let bs := skipBlanks bs
    match peek bs with
    | none => failPeeking .endInList []
    | some ']' => .ok ([j], bs.drop 1)
    | some ',' =>
      let bs := skipBlanks (bs.drop 1)
      if peek bs = some ']' then failPeeking .trailingComma bs
      else (readItems fuel bs).map fun r => (j :: r.1, r.2)
    | some _ => failPeeking .expectedListEnd bs

/-- The members of an object up to its end, at least one.  The last of a name counts. -/
def readMembers : Nat → Members Json → Reader (Members Json)
  | 0, _, bs => failPeeking .endInObject bs
  | fuel + 1, acc, bs => do
    let (name, bs) ← readName (skipBlanks bs)
    let (j, bs) ← readValue fuel bs
    let acc := Members.put name j acc
    let bs := skipBlanks bs
    match peek bs with
    | none => failPeeking .endInObject []
    | some '\x7d' => .ok (acc, bs.drop 1)
    | some ',' =>
      let bs := skipBlanks (bs.drop 1)
      if peek bs = some '\x7d' then failPeeking .trailingComma bs
      else readMembers fuel acc bs
    | some _ => failPeeking .expectedObjectEnd bs

end

/-- The value null; any other value is told by the least reading that shows what it is. -/
def readNull : Reader Unit := fun bs => do
  let bs := skipBlanks bs
  match bs with
  | [] => failPeeking .endInValue []
  | b :: rest =>
    match Char.ofUInt8 b with
    | 'n' => expectIdent ['u', 'l', 'l'] rest
    | 't' => do
      let (_, rest) ← expectIdent ['r', 'u', 'e'] rest
      failAt (.notNull (.bool true)) rest
    | 'f' => do
      let (_, rest) ← expectIdent ['a', 'l', 's', 'e'] rest
      failAt (.notNull (.bool false)) rest
    | '"' => do
      let (s, rest) ← readText rest
      failAt (.notNull (.text s)) rest
    | '[' => failAt (.notNull .list) bs
    | '\x7b' => failAt (.notNull .map) bs
    | c =>
      if c = '-' || c.isDigit then do
        let (j, rest) ← if c = '-' then readNumber true rest else readNumber false bs
        match j with
        | .int n => failAt (.notNull (.int n)) rest
        | .float x => failAt (.notNull (.float x)) rest
        | _ => failAt .badNumber rest
      else failPeeking .expectedValue bs

/-! ## Whole texts -/

/-- Runs a reader on a whole text, after which only blanks may follow. -/
def readAll {α : Type} (read : Reader α) (s : String) : Except TextError α :=
  let bs := s.toUTF8.data.toList
  let result : Except Stop α := do
    let (a, rest) ← read bs
    match skipBlanks rest with
    | [] => .ok a
    | rest => failPeeking .trailingCharacters rest
  result.mapError (Stop.locate bs)

/-- The value of a JSON text. -/
def parse (s : String) : Except TextError Json :=
  readAll (readValue (2 * s.utf8ByteSize + 2)) s

/-- Checks that a JSON text is the value null. -/
def parseNull (s : String) : Except TextError Unit := readAll readNull s

end WorkloadEnv.Json
