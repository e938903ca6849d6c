import WorkloadEnv.Yaml.Token.Name

/-! # Scalar tokens

    Plain, quoted and block scalars.  Where a scalar goes over several lines the
    break between two of them is folded into a space, unless there are empty
    lines between, of which each stands for a line feed.  A text that breaks the
    rules has no token (`none`). -/

namespace WorkloadEnv.Yaml

/-! ## Space between the words of a flow scalar -/

/-- The blanks and breaks after a word. -/
structure Gap where
  /-- Blanks before the first break. -/
  blanks : List Char
  /-- The first break, if there is one. -/
  firstBreak : List Char
  /-- The breaks after it. -/
  moreBreaks : List Char
  /-- Was there a break? -/
  broken : Bool

def Gap.none : Gap := ⟨[], [], [], false⟩

/-- What a gap stands for. -/
def Gap.text (g : Gap) : List Char :=
  if !g.broken then g.blanks
  else if g.firstBreak.head? = some '\n' then
    if g.moreBreaks.isEmpty then [' '] else g.moreBreaks
  else g.firstBreak ++ g.moreBreaks

/-- Reads blanks and breaks.  A tab left of `indent` on a later line is an error. -/
def scanGap (indent : Nat) : Nat → Gap → Cursor → Option (Gap × Cursor)
  | 0, g, c => some (g, c)
  | fuel + 1, g, c =>
    match c.peek with
    | none => some (g, c)
    | some ch =>
      if isBlank ch then
        if g.broken then
          if ch = '\t' && c.column < indent then none
          else scanGap indent fuel g (c.skip 1)
        else scanGap indent fuel { g with blanks := g.blanks ++ [ch] } (c.skip 1)
      else if isBreak ch then
        let (text, c) := c.takeBreak
        if g.broken then scanGap indent fuel { g with moreBreaks := g.moreBreaks ++ text } c
        else scanGap indent fuel { g with blanks := [], firstBreak := text, broken := true } c
      else some (g, c)

/-! ## Plain scalars -/

/-- A mark that ends a plain scalar inside a flow collection. -/
def endsPlainInFlow (ch : Char) : Bool := [',', '[', ']', '\x7b', '\x7d'].contains ch

/-- The characters of a plain scalar up to a blank or break; a colon before a
    mark of a flow collection is an error. -/
def scanPlainWord (inFlow : Bool) : Nat → List Char → Cursor → Option (List Char × Cursor)
  | 0, acc, c => some (acc, c)
  | fuel + 1, acc, c =>
    match c.peek with
    | none => some (acc, c)
    | some ch =>
      if isBlank ch || isBreak ch then some (acc, c)
      else if inFlow && ch = ':' &&
          (c.peekAt 1).any (fun n => n = '?' || endsPlainInFlow n) then none
      else if (ch = ':' && isBlankOrEnd (c.peekAt 1)) || (inFlow && endsPlainInFlow ch) then
        some (acc, c)
      else scanPlainWord inFlow fuel (ch :: acc) (c.skip 1)

/-- The words of a plain scalar with the gaps between them, in reverse.  Gives
    whether the scalar was followed by a break. -/
def scanPlainWords (inFlow : Bool) (indent : Nat) :
    Nat → Gap → List Char → Cursor → Option (List Char × Bool × Cursor)
  | 0, g, acc, c => some (acc, g.broken, c)
  | fuel + 1, g, acc, c =>
    if c.seesDocumentMarker || c.sees '#' then some (acc, g.broken, c)
    else do
      let (word, after) ← scanPlainWord inFlow c.left [] c
      let (acc, g) :=
        if word.isEmpty then (acc, g) else (word ++ (g.text.reverse ++ acc), Gap.none)
      match after.peek with
      | none => some (acc, g.broken, after)
      | some ch =>
        if !(isBlank ch || isBreak ch) then some (acc, g.broken, after)
        else do
          let (g, after) ← scanGap indent after.left g after
          if !inFlow && after.column < indent then some (acc, g.broken, after)
          else scanPlainWords inFlow indent fuel g acc after

/-- A plain scalar; its later lines have to reach `indent` outside of flow
    collections.  Gives whether the next token starts on a new line. -/
def scanPlain (inFlow : Bool) (indent : Nat) (c : Cursor) : Option (Token × Bool × Cursor) := do
  let (text, broken, c) ← scanPlainWords inFlow indent (c.left + 1) Gap.none [] c
  return (.scalar true (String.ofList text.reverse), broken, c)

/-! ## Quoted scalars -/

/-- The character of an escape of one letter. -/
def simpleEscape? : Char → Option Char
  | '0' => some '\x00'
  | 'a' => some '\x07'
  | 'b' => some '\x08'
  | 't' | '\t' => some '\t'
  | 'n' => some '\n'
  | 'v' => some '\x0b'
  | 'f' => some '\x0c'
  | 'r' => some '\r'
  | 'e' => some '\x1b'
  | ' ' => some ' '
  | '"' => some '"'
  | '/' => some '/'
  | '\\' => some '\\'
  | 'N' => some '\x85'
  | '_' => some '\xa0'
  | 'L' => some '\u2028'
  | 'P' => some '\u2029'
  | _ => none

/-- How many hexadecimal digits follow the letter of an escape by number. -/
def escapeWidth? : Char → Option Nat
  | 'x' => some 2
  | 'u' => some 4
  | 'U' => some 8
  | _ => none

/-- The number that hexadecimal digits stand for. -/
def hexNumber? (cs : List Char) : Option Nat :=
  cs.foldl (fun n c => do return (← n) * 16 + (← hexValue? c)) (some 0)

/-- The character of an escape, from its letter on, and the number of characters read. -/
def scanEscape (cs : List Char) : Option (Char × Nat) :=
  match cs with
  | [] => none
  | letter :: cs =>
    match simpleEscape? letter, escapeWidth? letter with
    | some ch, _ => some (ch, 1)
    | none, some width => do
      let ds := cs.take width
      if ds.length < width then none
      else
        let n ← hexNumber? ds
        if n.isValidChar then some (Char.ofNat n, width + 1) else none
    | none, none => none

/-- The characters of a quoted scalar up to a blank, a break or the closing
    quote.  Gives whether it stopped behind an escaped break. -/
def scanQuotedWord (single : Bool) : Nat → List Char → Cursor → Option (List Char × Bool × Cursor)
  | 0, acc, c => some (acc, false, c)
  | fuel + 1, acc, c =>
    match c.peek with
    | none => some (acc, false, c)
    | some ch =>
      if isBlank ch || isBreak ch then some (acc, false, c)
      else if single then
        if ch = '\'' then
          if c.peekAt 1 = some '\'' then scanQuotedWord single fuel ('\'' :: acc) (c.skip 2)
          else some (acc, false, c)
        else scanQuotedWord single fuel (ch :: acc) (c.skip 1)
      else if ch = '"' then some (acc, false, c)
      else if ch = '\\' then
        if (c.peekAt 1).any isBreak then some (acc, true, (c.skip 1).skipBreak)
        else do
          let (e, n) ← scanEscape (c.rest.drop 1)
          scanQuotedWord single fuel (e :: acc) (c.skip (n + 1))
      else scanQuotedWord single fuel (ch :: acc) (c.skip 1)

/-- The words of a quoted scalar with the gaps between them, in reverse. -/
def scanQuotedWords (single : Bool) : Nat → List Char → Cursor → Option (List Char × Cursor)
  | 0, _, _ => none
  | fuel + 1, acc, c =>
    if c.seesDocumentMarker || c.atEnd then none
    else do
      let (acc, escapedBreak, c) ← scanQuotedWord single c.left acc c
      if c.sees (if single then '\'' else '"') then some (acc, c.skip 1)
      else do
        let (g, c) ← scanGap 0 c.left { Gap.none with broken := escapedBreak } c
        scanQuotedWords single fuel (g.text.reverse ++ acc) c

/-- A scalar in single or double quotes. -/
def scanQuoted (single : Bool) (c : Cursor) : Option (Token × Cursor) := do
  let (text, c) ← scanQuotedWords single (c.left + 1) [] (c.skip 1)
  return (.scalar false (String.ofList text.reverse), c)

/-! ## Block scalars -/

/-- What happens to the breaks at the end of a block scalar. -/
inductive Chomping where
  | strip
  | clip
  | keep
  deriving DecidableEq, Repr

def chomping? : Option Char → Option Chomping
  | some '+' => some .keep
  | some '-' => some .strip
  | _ => none

/-- The indentation digit of a block scalar; a zero is an error. -/
def scanIndentDigit (c : Cursor) : Option (Nat × Cursor) :=
  match c.peek with
  | some ch =>
    if ch = '0' then none
    else if ch.isDigit then some (ch.toNat - 48, c.skip 1)
    else some (0, c)
  | none => some (0, c)

/-- The header of a block scalar after its mark: how the end is chomped, and by
    how much the lines are indented, zero if that is for the lines to tell. -/
def scanBlockHeader (c : Cursor) : Option (Chomping × Nat × Cursor) := do
  let (chomping, increment, c) ←
    match chomping? c.peek with
    | some chomping => do
      let (increment, c) ← scanIndentDigit (c.skip 1)
      some (chomping, increment, c)
    | none => do
      let (increment, c) ← scanIndentDigit c
      match chomping? c.peek with
      | some chomping => if increment = 0 then some (.clip, 0, c) else some (chomping, increment, c.skip 1)
      | none => some (.clip, increment, c)
  return (chomping, increment, ← c.skipToNextLine)

/-- Reads empty lines, up to the given indentation if it is known.  Gives the
    breaks and the largest indentation met; a tab where indentation is expected
    is an error. -/
def scanEmptyLines (indent : Nat) : Nat → List Char → Nat → Cursor → Option (List Char × Nat × Cursor)
  | 0, breaks, widest, c => some (breaks, widest, c)
  | fuel + 1, breaks, widest, c =>
    let room := if indent = 0 then c.left else indent - c.column
    let c := c.skip ((c.rest.take room).takeWhile (· = ' ')).length
    let widest := max widest c.column
    if (indent = 0 || c.column < indent) && c.sees '\t' then none
    else if c.peek.any isBreak then
      let (text, c) := c.takeBreak
      scanEmptyLines indent fuel (breaks ++ text) widest c
    else some (breaks, widest, c)

/-- What a block scalar keeps between two lines. -/
structure BlockState where
  /-- The text so far, in reverse. -/
  text : List Char
  /-- The break after the last line. -/
  lineBreak : List Char
  /-- The breaks of the empty lines after it. -/
  emptyLines : List Char
  /-- Did the last line start with a blank? -/
  afterBlank : Bool

/-- The lines of a block scalar, each of which starts at `indent`. -/
def scanBlockLines (folded : Bool) (indent : Nat) : Nat → BlockState → Cursor →
    Option (BlockState × Cursor)
  | 0, s, c => some (s, c)
  | fuel + 1, s, c =>
    if c.column ≠ indent || c.atEnd then some (s, c)
    else do
      let startsBlank := c.peek.any isBlank
      let joins := folded && s.lineBreak.head? = some '\n' && !s.afterBlank && !startsBlank
      let between :=
        if joins then (if s.emptyLines.isEmpty then [' '] else s.emptyLines)
        else s.lineBreak ++ s.emptyLines
      let (line, c) := c.takeWhile fun ch => !isBreak ch
      let (lineBreak, c) := c.takeBreak
      let (emptyLines, _, c) ← scanEmptyLines indent c.left [] 0 c
      scanBlockLines folded indent fuel
        ⟨line.reverse ++ (between.reverse ++ s.text), lineBreak, emptyLines, startsBlank⟩ c

/-- A literal or folded block scalar in a block of the given indentation. -/
def scanBlock (folded : Bool) (parent : Int) (c : Cursor) : Option (Token × Cursor) := do
  let (chomping, increment, c) ← scanBlockHeader (c.skip 1)
  let known := if increment = 0 then 0 else (max parent 0).toNat + increment
  let (emptyLines, widest, c) ← scanEmptyLines known c.left [] 0 c
  let indent := if known = 0 then max (max widest (parent + 1).toNat) 1 else known
  let (s, c) ← scanBlockLines folded indent (c.left + 1) ⟨[], [], emptyLines, false⟩ c
  let ending := match chomping with
    | .strip => []
    | .clip => s.lineBreak
    | .keep => s.lineBreak ++ s.emptyLines
  return (.scalar false (String.ofList (s.text.reverse ++ ending)), c)

end WorkloadEnv.Yaml
