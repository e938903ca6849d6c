import WorkloadEnv.Yaml.Cursor
import WorkloadEnv.Yaml.Scalar

/-! # Styles of written texts

    A text is written in the plainest of four styles that reads back as the same
    text: a literal block for a text of several lines, else plain, else in single
    quotes, else in double quotes.  Double quotes are the only style with
    escapes, so a text with characters that are not printable takes them. -/

namespace WorkloadEnv.Yaml

inductive Style where
  | plain
  | single
  | double
  | literal
  deriving DecidableEq, Repr

/-! ## Characters and neighbours -/

/-- A character that may be written as it is. -/
def isPrintable (c : Char) : Bool :=
  let n := c.toNat
  n == 0x0a || (0x20 ≤ n && n ≤ 0x7e) || (0xa0 ≤ n && n ≤ 0xfffd && n != 0xfeff) || 0x10000 ≤ n

/-- Are there two neighbours that the test holds of? -/
def anyNeighbours (test : Char → Char → Bool) : List Char → Bool
  | a :: b :: cs => test a b || anyNeighbours test (b :: cs)
  | _ => false

/-- A space before a break would be lost in a block or in quotes. -/
def hasSpaceBeforeBreak (cs : List Char) : Bool :=
  anyNeighbours (fun a b => a = ' ' && isBreak b) cs

/-- A space after a break would be lost in quotes. -/
def hasSpaceAfterBreak (cs : List Char) : Bool :=
  anyNeighbours (fun a b => isBreak a && b = ' ') cs

/-! ## Plain texts -/

/-- Does the text start as something other than a plain scalar? -/
def startsOtherwise (cs : List Char) : Bool :=
  match cs with
  | '-' :: '-' :: '-' :: _ | '.' :: '.' :: '.' :: _ => true
  | c :: cs =>
    ['#', ',', '[', ']', '\x7b', '\x7d', '&', '*', '!', '|', '>', '\'', '"', '%', '@', '`'].contains c ||
      ((c = '?' || c = '-') && isBlankOrEnd cs.head?)
  | [] => false

/-- Is there a colon or a hash inside that would end a plain scalar? -/
def hasEnder (cs : List Char) : Bool :=
  cs.getLast? = some ':' ||
    anyNeighbours (fun a b => (a = ':' && (isBlank b || isBreak b)) || (isBlank a && b = '#')) cs

def isSingleAllowed (cs : List Char) : Bool :=
  cs.all isPrintable && !hasSpaceBeforeBreak cs && !hasSpaceAfterBreak cs

def isPlainAllowed (cs : List Char) : Bool :=
  isSingleAllowed cs && !cs.any isBreak && cs.head? ≠ some ' ' && cs.getLast? ≠ some ' ' &&
    !startsOtherwise cs && !hasEnder cs

def isLiteralAllowed (cs : List Char) : Bool :=
  cs.all isPrintable && !hasSpaceBeforeBreak cs && cs.getLast? ≠ some ' '

/-- Would the text, written plain, be read as something else, or look like a number? -/
def needsQuotes (s : String) : Bool :=
  Form.ofPlain s ≠ .text || Form.hasLeadingZero s.toList

/-- The style of a text. -/
def Style.ofText (s : String) : Style :=
  let cs := s.toList
  if cs.contains '\n' then if isLiteralAllowed cs then literal else double
  else if !needsQuotes s && isPlainAllowed cs then plain
  else if isSingleAllowed cs then single
  else double

/-! ## Written forms -/

/-- Spaces up to a column. -/
def spaces (n : Nat) : List Char := List.replicate n ' '

/-- The text between single quotes: a quote is written twice, and after breaks
    the line is indented. -/
def singleBody (indent : Nat) : Bool → List Char → List Char
  | broken, [] => if broken then spaces indent else []
  | broken, c :: cs =>
    if isBreak c then c :: singleBody indent true cs
    else (if broken then spaces indent else []) ++
      (if c = '\'' then [c, c] else [c]) ++ singleBody indent false cs

/-- A number in upper-case hexadecimal digits, filled up to a width. -/
def hexField (width n : Nat) : List Char :=
  let ds := (Nat.toDigits 16 n).map Char.toUpper
  List.replicate (width - ds.length) '0' ++ ds

/-- A character in double quotes. -/
def doubleChar (c : Char) : List Char :=
  if isPrintable c && !isBreak c && c ≠ '"' && c ≠ '\\' then [c]
  else '\\' :: match c with
    | '\x00' => ['0']
    | '\x07' => ['a']
    | '\x08' => ['b']
    | '\t' => ['t']
    | '\n' => ['n']
    | '\x0b' => ['v']
    | '\x0c' => ['f']
    | '\r' => ['r']
    | '\x1b' => ['e']
    | '"' => ['"']
    | '\\' => ['\\']
    | '\x85' => ['N']
    | '\u2028' => ['L']
    | '\u2029' => ['P']
    | c =>
      let n := c.toNat
      if n < 0x100 then 'x' :: hexField 2 n
      else if n < 0x10000 then 'u' :: hexField 4 n
      else 'U' :: hexField 8 n

/-- The header of a literal block: an indentation digit where the first line does
    not show the indentation, and what becomes of the breaks at the end. -/
def literalHeader (cs : List Char) : List Char :=
  let digit := if cs.head?.any fun c => c = ' ' || isBreak c then ['2'] else []
  let chomping := match cs.reverse with
    | [] => ['-']
    | [c] => if isBreak c then ['+'] else ['-']
    | c :: d :: _ => if !isBreak c then ['-'] else if isBreak d then ['+'] else []
  '|' :: digit ++ chomping

/-- The lines of a literal block, each indented unless it is empty. -/
def literalBody (indent : Nat) : Bool → List Char → List Char
  | _, [] => []
  | broken, c :: cs =>
    if isBreak c then c :: literalBody indent true cs
    else (if broken then spaces indent else []) ++ c :: literalBody indent false cs

/-- A text in a style, with later lines indented. -/
def Style.write (indent : Nat) (s : String) : Style → List Char
  | plain => s.toList
  | single => '\'' :: singleBody indent false s.toList ++ ['\'']
  | double => '"' :: s.toList.flatMap doubleChar ++ ['"']
  | literal => literalHeader s.toList ++ '\n' :: literalBody indent true s.toList

/-- A text in its own style. -/
def writeText (indent : Nat) (s : String) : List Char := (Style.ofText s).write indent s

end WorkloadEnv.Yaml
