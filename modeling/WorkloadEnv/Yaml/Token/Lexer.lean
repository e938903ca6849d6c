import WorkloadEnv.Yaml.Token.Scalar

/-! # From text to tokens

    A key is only known as one when its colon comes, so a token that may start a
    key is remembered as a candidate, and no token from it on is delivered until
    the candidate is either confirmed or given up.  A candidate is given up when
    its line ends, or after 1024 bytes; where the indentation leaves no
    other reading, that is an error.

    A text is taken in pieces, and a piece is checked for characters that may
    not stand in a document before any of it is read.  What comes before the
    first bad piece is read as if the text went on.

    The tokens of a text end in `Token.streamEnd` exactly when it has no error;
    otherwise they are those before it. -/

namespace WorkloadEnv.Yaml

/-! ## State -/

/-- A token that may turn out to start a key. -/
structure Candidate where
  /-- The number of the token, counted from the start of the text. -/
  number : Nat
  index : Nat
  line : Nat
  column : Nat
  /-- Can the token be nothing but the start of a key? -/
  isRequired : Bool

structure Lexer where
  cursor : Cursor
  /-- Does the text go on where the cursor ends, with nothing that could be read? -/
  isCut : Bool
  /-- Tokens that are read and not yet delivered. -/
  pending : List Token
  /-- How many tokens were delivered. -/
  delivered : Nat
  /-- The column of the current block; -1 outside of all blocks. -/
  indent : Int
  /-- The columns of the blocks around it. -/
  outerIndents : List Int
  /-- May a key start here? -/
  keyAllowed : Bool
  candidate : Option Candidate
  /-- The candidates of the flow collections around the current one, and of the block around them. -/
  outerCandidates : List (Option Candidate)

namespace Lexer

def start (c : Cursor) (isCut : Bool) : Lexer := ⟨c, isCut, [], 0, -1, [], true, none, []⟩

/-- Is the current place inside a flow collection? -/
def inFlow (l : Lexer) : Bool := !l.outerCandidates.isEmpty

/-- Adds a token at the end. -/
def emit (t : Token) (l : Lexer) : Lexer := { l with pending := l.pending ++ [t] }

/-- Adds a token in front of the one of that number. -/
def emitAt (number : Nat) (t : Token) (l : Lexer) : Lexer :=
  { l with pending := l.pending.insertIdx (number - l.delivered) t }

/-- Moves past `n` characters. -/
def skip (n : Nat) (l : Lexer) : Lexer := { l with cursor := l.cursor.skip n }

def allowKey (allowed : Bool) (l : Lexer) : Lexer := { l with keyAllowed := allowed }

/-! ## Candidates -/

/-- Is the line of the candidate over, or the candidate too far back? -/
def isStale (l : Lexer) (k : Candidate) : Bool :=
  k.line < l.cursor.line || k.index + 1024 < l.cursor.index

/-- Gives a candidate up if it is stale. -/
def dropIfStale (l : Lexer) : Option Candidate → Option (Option Candidate)
  | none => some none
  | some k =>
    if l.isStale k then if k.isRequired then none else some none
    else some (some k)

/-- Gives up all stale candidates. -/
def dropStale (l : Lexer) : Option Lexer := do
  let outer ← l.outerCandidates.mapM l.dropIfStale
  let candidate ← l.dropIfStale l.candidate
  return { l with candidate, outerCandidates := outer }

/-- Gives up the candidate of the current level. -/
def dropCandidate (l : Lexer) : Option Lexer :=
  if l.candidate.any (·.isRequired) then none else some { l with candidate := none }

/-- Makes the next token a candidate, where a key may start. -/
def saveCandidate (l : Lexer) : Option Lexer :=
  if l.keyAllowed then
    l.dropCandidate.map fun l => { l with candidate := some {
      number := l.delivered + l.pending.length
      index := l.cursor.index
      line := l.cursor.line
      column := l.cursor.column
      isRequired := !l.inFlow && l.indent = l.cursor.column } }
  else some l

/-- Is the next token to deliver still a candidate? -/
def isHeadOpen (l : Lexer) : Bool :=
  (l.candidate :: l.outerCandidates).any fun k => k.any (·.number = l.delivered)

/-! ## Blocks -/

/-- Starts a block at a column, if it is further in than the current one. -/
def openBlock (column : Nat) (emitStart : Lexer → Lexer) (l : Lexer) : Lexer :=
  if !l.inFlow && l.indent < column then
    emitStart { l with indent := column, outerIndents := l.indent :: l.outerIndents }
  else l

/-- Ends the blocks that are further in than a column. -/
def closeBlocks (column : Int) (l : Lexer) : Lexer :=
  if l.inFlow then l
  else
    let indents := l.indent :: l.outerIndents
    let closed := indents.takeWhile (column < ·)
    match indents.drop closed.length with
    | indent :: outerIndents =>
      { l with
        indent, outerIndents
        pending := l.pending ++ List.replicate closed.length .blockEnd }
    | [] => l

/-! ## Between tokens -/

/-- Moves to the next token, past blanks, comments and breaks.  A line may start
    with a mark of the byte order, which takes up a column.  Where a key may
    start, a tab is no blank. -/
def skipToToken : Nat → Lexer → Lexer
  | 0, l => l
  | fuel + 1, l =>
    let tabs := l.inFlow || !l.keyAllowed
    let c := l.cursor
    let c := if c.column = 0 && c.sees '\ufeff' then c.skip 1 else c
    let c := c.skipWhile fun ch => ch = ' ' || (tabs && ch = '\t')
    let c := if c.sees '#' then c.skipLineRest else c
    if c.peek.any isBreak then
      skipToToken fuel { l with cursor := c.skipBreak, keyAllowed := l.keyAllowed || !l.inFlow }
    else { l with cursor := c }

/-! ## Tokens -/

def fetchStreamEnd (l : Lexer) : Option Lexer := do
  let c := l.cursor
  let c := if c.column = 0 then c else { c with line := c.line + 1, column := 0 }
  let l ← ({ l with cursor := c }.closeBlocks (-1)).dropCandidate
  return (l.allowKey false).emit .streamEnd

def fetchDirective (l : Lexer) : Option Lexer := do
  let l ← (l.closeBlocks (-1)).dropCandidate
  let (token, c) ← scanDirective l.cursor
  return ({ l with cursor := c }.allowKey false).emit token

def fetchDocumentMarker (token : Token) (l : Lexer) : Option Lexer := do
  let l ← (l.closeBlocks (-1)).dropCandidate
  return ((l.allowKey false).skip 3).emit token

def fetchFlowStart (token : Token) (l : Lexer) : Option Lexer := do
  let l ← l.saveCandidate
  let l := { l with candidate := none, outerCandidates := l.candidate :: l.outerCandidates }
  return ((l.allowKey true).skip 1).emit token

def fetchFlowEnd (token : Token) (l : Lexer) : Option Lexer := do
  let l ← l.dropCandidate
  let l := match l.outerCandidates with
    | candidate :: outerCandidates => { l with candidate, outerCandidates }
    | [] => l
  return ((l.allowKey false).skip 1).emit token

def fetchFlowEntry (l : Lexer) : Option Lexer := do
  let l ← l.dropCandidate
  return ((l.allowKey true).skip 1).emit .flowEntry

def fetchBlockEntry (l : Lexer) : Option Lexer := do
  if !l.inFlow && !l.keyAllowed then none
  else
    let l ← (l.openBlock l.cursor.column (emit .blockListStart)).dropCandidate
    return ((l.allowKey true).skip 1).emit .blockEntry

def fetchKey (l : Lexer) : Option Lexer := do
  if !l.inFlow && !l.keyAllowed then none
  else
    let l ← (l.openBlock l.cursor.column (emit .blockMapStart)).dropCandidate
    return ((l.allowKey (!l.inFlow)).skip 1).emit .key

/-- A colon confirms the candidate, or follows a key that was announced or is empty. -/
def fetchValue (l : Lexer) : Option Lexer :=
  match l.candidate with
  | some k =>
    let l := (l.emitAt k.number .key).openBlock k.column (emitAt k.number .blockMapStart)
    some (({ l with candidate := none, keyAllowed := false }.skip 1).emit .value)
  | none =>
    if !l.inFlow && !l.keyAllowed then none
    else
      let l := l.openBlock l.cursor.column (emit .blockMapStart)
      some (((l.allowKey (!l.inFlow)).skip 1).emit .value)

/-- A token that can start a key, read by `scan`. -/
def fetchWith (scan : Cursor → Option (Token × Cursor)) (l : Lexer) : Option Lexer := do
  let l ← l.saveCandidate
  let (token, c) ← scan l.cursor
  return ({ l with cursor := c }.allowKey false).emit token

def fetchName (token : String → Token) (l : Lexer) : Option Lexer :=
  l.fetchWith fun c => (scanName (c.skip 1)).map fun (name, c) => (token name, c)

def fetchBlockScalar (folded : Bool) (l : Lexer) : Option Lexer := do
  let l ← l.dropCandidate
  let (token, c) ← scanBlock folded l.indent l.cursor
  return ({ l with cursor := c }.allowKey true).emit token

/-- After a plain scalar that was followed by a break a key may start. -/
def fetchPlain (l : Lexer) : Option Lexer := do
  let l ← l.saveCandidate
  let (token, broken, c) ← scanPlain l.inFlow (l.indent + 1).toNat l.cursor
  return ({ l with cursor := c }.allowKey broken).emit token

/-! ## Choice -/

/-- The characters that start no plain scalar. -/
def isIndicator (ch : Char) : Bool :=
  ['-', '?', ':', ',', '[', ']', '\x7b', '\x7d', '#', '&', '*', '!', '|', '>', '\'', '"', '%', '@',
    '`'].contains ch

/-- Does a plain scalar start with the character, given the one after it? -/
def startsPlain (inFlow : Bool) (ch : Char) (next : Option Char) : Bool :=
  !(isBlank ch || isBreak ch || isIndicator ch) ||
    (ch = '-' && !next.any isBlank) ||
    (!inFlow && (ch = '?' || ch = ':') && !isBlankOrEnd next)

/-- Reads the token that starts with the given character. -/
def fetchToken (ch : Char) (l : Lexer) : Option Lexer :=
  let c := l.cursor
  let next := c.peekAt 1
  if c.column = 0 && ch = '%' then l.fetchDirective
  else if c.seesMarker '-' then l.fetchDocumentMarker .documentStart
  else if c.seesMarker '.' then l.fetchDocumentMarker .documentEnd
  else if ch = '[' then l.fetchFlowStart .flowListStart
  else if ch = '\x7b' then l.fetchFlowStart .flowMapStart
  else if ch = ']' then l.fetchFlowEnd .flowListEnd
  else if ch = '\x7d' then l.fetchFlowEnd .flowMapEnd
  else if ch = ',' then l.fetchFlowEntry
  else if ch = '-' && isBlankOrEnd next then l.fetchBlockEntry
  else if ch = '?' && (l.inFlow || isBlankOrEnd next) then l.fetchKey
  else if ch = ':' && (l.inFlow || isBlankOrEnd next) then l.fetchValue
  else if ch = '*' then l.fetchName .aliasOf
  else if ch = '&' then l.fetchName .anchor
  else if ch = '!' then l.fetchWith (scanTag l.inFlow)
  else if ch = '|' && !l.inFlow then l.fetchBlockScalar false
  else if ch = '>' && !l.inFlow then l.fetchBlockScalar true
  else if ch = '\'' then l.fetchWith (scanQuoted true)
  else if ch = '"' then l.fetchWith (scanQuoted false)
  else if startsPlain l.inFlow ch next then l.fetchPlain
  else none

/-- How many characters are looked at to choose a token: a marker and what follows it. -/
def lookAhead : Nat := 4

/-- Reads one more token. -/
def fetch (l : Lexer) : Option Lexer := do
  let l ← (l.skipToToken (l.cursor.left + 1)).dropStale
  let l := l.closeBlocks l.cursor.column
  if l.isCut && (l.cursor.rest.take lookAhead).length < lookAhead then none
  else match l.cursor.peek with
    | none => l.fetchStreamEnd
    | some ch => l.fetchToken ch

/-- Delivers tokens, reading more where none is ready; `fuel` bounds both. -/
def run : Nat → Lexer → List Token
  | 0, _ => []
  | fuel + 1, l =>
    match l.pending with
    | [] =>
      match l.fetch with
      | some l => run fuel l
      | none => []
    | t :: pending =>
      match l.dropStale with
      | none => []
      | some l =>
        if l.isHeadOpen then
          match l.fetch with
          | some l => run fuel l
          | none => []
        else if t = .streamEnd then [t]
        else t :: run fuel { l with pending, delivered := l.delivered + 1 }

end Lexer

/-! ## Pieces -/

/-- How many bytes a piece of a text has at most. -/
def pieceSize : Nat := 16384

/-- The most characters that fit into the given number of bytes, and those after them. -/
def splitBytes : Nat → List Char → List Char × List Char
  | _, [] => ([], [])
  | room, ch :: cs =>
    if ch.utf8Size ≤ room then
      let (piece, rest) := splitBytes (room - ch.utf8Size) cs
      (ch :: piece, rest)
    else ([], ch :: cs)

/-- The characters before the first piece that holds one which may not stand in a
    document, and whether there is such a piece.  `fuel` bounds the number of pieces. -/
def cutBadPiece : Nat → List Char → List Char × Bool
  | 0, cs => ([], !cs.isEmpty)
  | _, [] => ([], false)
  | fuel + 1, cs =>
    let (piece, rest) := splitBytes pieceSize cs
    if piece.all isAllowed then
      let (more, isCut) := cutBadPiece fuel rest
      (piece ++ more, isCut)
    else ([], true)

/-- The tokens of a text. -/
def tokens (s : String) : List Token :=
  let (cs, isCut) := cutBadPiece s.length s.toList
  Lexer.run (8 * (cs.length + 2)) (Lexer.start (Cursor.start cs) isCut)

end WorkloadEnv.Yaml
