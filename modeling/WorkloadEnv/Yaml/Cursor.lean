/-! # Places in a text

    A cursor is a place in a YAML text: what is left of it, and how far it has
    come in bytes, lines and columns.  A column is a character wide, whatever
    the number of its bytes.  A line break is one of the five of the format, a
    carriage return and line feed counting as one. -/

namespace WorkloadEnv.Yaml

/-! ## Characters -/

/-- A space or a tab. -/
def isBlank (c : Char) : Bool := c = ' ' || c = '\t'

/-- A line feed, carriage return, next line, line separator or paragraph separator. -/
def isBreak (c : Char) : Bool :=
  c = '\n' || c = '\r' || c = '\x85' || c = '\u2028' || c = '\u2029'

/-- A letter, digit, hyphen or underscore of ASCII. -/
def isWordChar (c : Char) : Bool := c.isAlphanum || c = '-' || c = '_'

/-- A character a document may contain as it stands. -/
def isAllowed (c : Char) : Bool :=
  let n := c.toNat
  n == 0x09 || n == 0x0a || n == 0x0d || (0x20 ≤ n && n ≤ 0x7e) || n == 0x85 ||
    (0xa0 ≤ n && n ≤ 0xd7ff) || (0xe000 ≤ n && n ≤ 0xfffd) || 0x10000 ≤ n

/-- A break, or the end of the text. -/
def isBreakOrEnd (c : Option Char) : Bool := c.all isBreak

/-- A blank, a break, or the end of the text. -/
def isBlankOrEnd (c : Option Char) : Bool := c.all fun c => isBlank c || isBreak c

/-! ## Cursors -/

/-- How many bytes the characters take up in UTF-8. -/
def byteCount (cs : List Char) : Nat := cs.foldl (fun n ch => n + ch.utf8Size) 0

structure Cursor where
  rest : List Char
  /-- How many bytes the whole text has. -/
  total : Nat
  /-- How many of them are behind. -/
  index : Nat
  line : Nat
  column : Nat

namespace Cursor

def start (cs : List Char) : Cursor := ⟨cs, byteCount cs, 0, 0, 0⟩

/-- How many bytes are left: at least as many as there are characters. -/
def left (c : Cursor) : Nat := c.total - c.index

/-- The next character. -/
def peek (c : Cursor) : Option Char := c.rest.head?

/-- The character `n` places ahead. -/
def peekAt (c : Cursor) (n : Nat) : Option Char := c.rest[n]?

def atEnd (c : Cursor) : Bool := c.rest.isEmpty

/-- Does the given character come next? -/
def sees (c : Cursor) (ch : Char) : Bool := c.peek = some ch

/-- Moves past `n` characters that are no breaks. -/
def skip (c : Cursor) (n : Nat) : Cursor :=
  ⟨c.rest.drop n, c.total, c.index + byteCount (c.rest.take n), c.line, c.column + n⟩

/-- Moves past the characters of a class that has no breaks, and gives them. -/
def takeWhile (c : Cursor) (p : Char → Bool) : List Char × Cursor :=
  let cs := c.rest.takeWhile p
  (cs, c.skip cs.length)

/-- Moves past the characters of a class that has no breaks. -/
def skipWhile (c : Cursor) (p : Char → Bool) : Cursor := (c.takeWhile p).2

def skipBlanks (c : Cursor) : Cursor := c.skipWhile isBlank

/-- Moves to the end of the line. -/
def skipLineRest (c : Cursor) : Cursor := c.skipWhile fun ch => !isBreak ch

/-- Moves past a break, if one comes next, and gives the text it stands for. -/
def takeBreak (c : Cursor) : List Char × Cursor :=
  match c.rest with
  | '\r' :: '\n' :: cs => (['\n'], ⟨cs, c.total, c.index + 2, c.line + 1, 0⟩)
  | ch :: cs =>
    if isBreak ch then
      ([if ch = '\u2028' ∨ ch = '\u2029' then ch else '\n'],
        ⟨cs, c.total, c.index + ch.utf8Size, c.line + 1, 0⟩)
    else ([], c)
  | [] => ([], c)

def skipBreak (c : Cursor) : Cursor := c.takeBreak.2

/-- Moves past blanks and a comment, up to and past a break or the end.  Anything else is an error. -/
def skipToNextLine (c : Cursor) : Option Cursor :=
  let c := c.skipBlanks
  let c := if c.sees '#' then c.skipLineRest else c
  if isBreakOrEnd c.peek then some c.skipBreak else none

/-- Does the line start with three of the given character, and then a blank, a break or the end? -/
def seesMarker (c : Cursor) (ch : Char) : Bool :=
  c.column = 0 && c.rest.take 3 == [ch, ch, ch] && isBlankOrEnd (c.peekAt 3)

/-- Does the line start with the marker of a document's start or end? -/
def seesDocumentMarker (c : Cursor) : Bool := c.seesMarker '-' || c.seesMarker '.'

end Cursor

end WorkloadEnv.Yaml
