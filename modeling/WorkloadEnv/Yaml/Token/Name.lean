import WorkloadEnv.Yaml.Cursor
import WorkloadEnv.Yaml.Token.Basic

/-! # Names, tags and directives

    The tokens that are written with a mark in front: anchors and aliases, tags,
    and the directives before a document.  A text that breaks their rules has no
    token (`none`). -/

namespace WorkloadEnv.Yaml

/-! ## Anchors and aliases -/

/-- What may follow a name. -/
def endsName (c : Option Char) : Bool :=
  isBlankOrEnd c || c.any fun ch => ['?', ':', ',', ']', '\x7d', '%', '@', '`'].contains ch

/-- The name of an anchor or alias, after its mark. -/
def scanName (c : Cursor) : Option (String × Cursor) :=
  let (name, c) := c.takeWhile isWordChar
  if name.isEmpty || !endsName c.peek then none else some (String.ofList name, c)

/-! ## Tags -/

/-- The marks that a tag may contain beside letters and digits. -/
def isTagMark (c : Char) : Bool :=
  [';', '/', '?', ':', '@', '&', '=', '+', '$', '.', '!', '~', '*', '\'', '(', ')'].contains c

/-- The marks that only a tag in full may contain. -/
def isFullTagMark (c : Char) : Bool := c = ',' || c = '[' || c = ']'

/-- The value of a hexadecimal digit. -/
def hexValue? (c : Char) : Option Nat :=
  if c.isDigit then some (c.toNat - 48)
  else if 'a' ≤ c ∧ c ≤ 'f' then some (c.toNat - 87)
  else if 'A' ≤ c ∧ c ≤ 'F' then some (c.toNat - 55)
  else none

/-- A byte after a percent sign. -/
def escapedByte? : List Char → Option (UInt8 × List Char)
  | '%' :: a :: b :: cs => do
    return (UInt8.ofNat ((← hexValue? a) * 16 + (← hexValue? b)), cs)
  | _ => none

/-- How many bytes follow the first one of a character. -/
def trailCount? (first : UInt8) : Option Nat :=
  let n := first.toNat
  if n < 0x80 then some 0
  else if 0xc0 ≤ n ∧ n < 0xe0 then some 1
  else if 0xe0 ≤ n ∧ n < 0xf0 then some 2
  else if 0xf0 ≤ n ∧ n < 0xf8 then some 3
  else none

/-- The bytes of a character after the first one. -/
def trailBytes? : Nat → List Char → Option (List UInt8 × List Char)
  | 0, cs => some ([], cs)
  | n + 1, cs => do
    let (byte, cs) ← escapedByte? cs
    if byte.toNat / 0x40 = 2 then
      let (bytes, cs) ← trailBytes? n cs
      return (byte :: bytes, cs)
    else none

/-- The bytes of a character, each after a percent sign.  Only their number and
    order are checked; there need not be such a character. -/
def escapedBytes? (cs : List Char) : Option (List UInt8 × List Char) := do
  let (first, cs) ← escapedByte? cs
  let (bytes, cs) ← trailBytes? (← trailCount? first) cs
  return (first :: bytes, cs)

/-- The bytes of a tag; `fuel` bounds the number of its characters. -/
def scanTagBytes (full : Bool) : Nat → List UInt8 → Cursor → Option (List UInt8 × Cursor)
  | 0, acc, c => some (acc.reverse, c)
  | fuel + 1, acc, c =>
    match c.peek with
    | none => some (acc.reverse, c)
    | some ch =>
      if ch = '%' then
        match escapedBytes? c.rest with
        | some (bytes, rest) =>
          scanTagBytes full fuel (bytes.reverse ++ acc) (c.skip (c.rest.length - rest.length))
        | none => none
      else if isWordChar ch || isTagMark ch || (full && isFullTagMark ch) then
        scanTagBytes full fuel (ch.toUInt8 :: acc) (c.skip 1)
      else some (acc.reverse, c)

/-- A tag, or a part of one, that goes on from what is already known of it.  At
    least one character has to be there. -/
def scanTagPart (full : Bool) (known : List Char) (c : Cursor) : Option (Tag × Cursor) := do
  let (bytes, c) ← scanTagBytes full c.left [] c
  if known.isEmpty && bytes.isEmpty then none
  else return (Tag.ofBytes ((known.drop 1).map Char.toUInt8 ++ bytes), c)

/-- The handle of a tag: marks around a word, or the first mark and the word alone. -/
def scanHandle (directive : Bool) (c : Cursor) : Option (List Char × Cursor) :=
  if !c.sees '!' then none
  else
    let (word, c) := (c.skip 1).takeWhile isWordChar
    if c.sees '!' then some ('!' :: word ++ ['!'], c.skip 1)
    else if directive && !word.isEmpty then none
    else some ('!' :: word, c)

/-- Does the handle end in a mark of its own? -/
def isClosedHandle (handle : List Char) : Bool :=
  1 < handle.length && handle.getLast? = some '!'

/-- A tag: in full between angle brackets, or with a handle. -/
def scanTag (inFlow : Bool) (c : Cursor) : Option (Token × Cursor) := do
  let (token, c) ←
    if c.peekAt 1 = some '<' then do
      let (uri, c) ← scanTagPart true [] (c.skip 2)
      if c.sees '>' then some (Token.tag "" uri, c.skip 1) else none
    else do
      let (handle, c) ← scanHandle false c
      if isClosedHandle handle then do
        let (suffix, c) ← scanTagPart false [] c
        some (Token.tag (String.ofList handle) suffix, c)
      else do
        let (suffix, c) ← scanTagPart false handle c
        some (if suffix.isEmpty then Token.tag "" Tag.mark else Token.tag "!" suffix, c)
  if (inFlow && c.sees ',') || isBlankOrEnd c.peek then some (token, c) else none

/-! ## Directives -/

/-- A part of a version: up to nine digits. -/
def scanVersionPart (c : Cursor) : Option (Nat × Cursor) :=
  let (ds, c) := c.takeWhile Char.isDigit
  if ds.isEmpty || 9 < ds.length then none
  else some (ds.foldl (fun n d => 10 * n + (d.toNat - 48)) 0, c)

def scanVersion (c : Cursor) : Option (Token × Cursor) := do
  let (major, c) ← scanVersionPart c.skipBlanks
  if !c.sees '.' then none
  else do
    let (minor, c) ← scanVersionPart (c.skip 1)
    some (.versionDirective major minor, c)

def scanTagDirective (c : Cursor) : Option (Token × Cursor) := do
  let (handle, c) ← scanHandle true c.skipBlanks
  if !c.peek.any isBlank then none
  else do
    let (uri, c) ← scanTagPart true [] c.skipBlanks
    if isBlankOrEnd c.peek then some (.tagDirective (String.ofList handle) uri, c) else none

/-- A directive with its line: the version of the format, or a handle for tags. -/
def scanDirective (c : Cursor) : Option (Token × Cursor) := do
  let (name, c) := (c.skip 1).takeWhile isWordChar
  if !isBlankOrEnd c.peek then none
  else do
    let (token, c) ←
      if name = ['Y', 'A', 'M', 'L'] then scanVersion c
      else if name = ['T', 'A', 'G'] then scanTagDirective c
      else none
    return (token, ← c.skipToNextLine)

end WorkloadEnv.Yaml
