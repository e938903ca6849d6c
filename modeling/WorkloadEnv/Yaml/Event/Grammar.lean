import WorkloadEnv.Yaml.Event.Basic
import WorkloadEnv.Yaml.Token.Basic

/-! # From tokens to events

    A grammar read with one token of look-ahead: what is expected next stands on
    a stack, and each step takes the topmost expectation and some tokens, and
    gives at most one event and new expectations.  A step that fails ends its
    document. -/

namespace WorkloadEnv.Yaml

/-! ## Expectations -/

inductive Expected where
  /-- A node, which is left out only where the expectation that wants it says so.
      In a block it may be a block collection, and where `indentless` holds a
      list whose entries are not further in than the key. -/
  | node (inBlock indentless : Bool)
  | blockEntry
  | indentlessEntry
  | blockKey
  | blockValue
  /-- An entry of a flow list, after a comma unless it is the first. -/
  | flowEntry (first : Bool)
  /-- The key of a mapping of one pair, which is an entry of a flow list. -/
  | pairKey
  | pairValue
  | pairEnd
  /-- A key of a flow mapping, after a comma unless it is the first. -/
  | flowKey (first : Bool)
  | flowValue
  /-- The value of a key that no colon can follow. -/
  | flowNoValue
  deriving DecidableEq, Repr

/-- What a step gives: events, what is expected next, the tokens left. -/
structure Progress where
  events : List Event
  expected : List Expected
  tokens : List Token

/-- The prefixes of tags by their handles. -/
abbrev TagHandles := List (String × Tag)

/-! ## Nodes -/

/-- The tag that a handle and the text after it stand for. -/
def resolveTag (handles : TagHandles) (handle : String) (suffix : Tag) : Option Tag :=
  if handle = "" then some suffix
  else (handles.lookup handle).map fun uri => uri.append suffix

/-- Takes the anchor and the tag in front of a node, in any order. -/
def takeProperties (handles : TagHandles) (ts : List Token) : Option (Properties × List Token) :=
  match ts with
  | .anchor a :: .tag h s :: ts | .tag h s :: .anchor a :: ts =>
    (resolveTag handles h s).map fun tag => (⟨some a, some tag⟩, ts)
  | .anchor a :: ts => some (⟨some a, none⟩, ts)
  | .tag h s :: ts => (resolveTag handles h s).map fun tag => (⟨none, some tag⟩, ts)
  | ts => some (.none, ts)

/-- The content of a node after its properties.  With properties it may be left out. -/
def stepContent (inBlock indentless : Bool) (p : Properties) (ts : List Token) : Option Progress :=
  match ts with
  | [] => none
  | .scalar plain text :: rest => some ⟨[.scalar p plain text], [], rest⟩
  | .flowListStart :: rest => some ⟨[.listStart p], [.flowEntry true], rest⟩
  | .flowMapStart :: rest => some ⟨[.mapStart p], [.flowKey true], rest⟩
  | t :: rest =>
    if indentless && t = .blockEntry then some ⟨[.listStart p], [.indentlessEntry], ts⟩
    else if inBlock && t = .blockListStart then some ⟨[.listStart p], [.blockEntry], rest⟩
    else if inBlock && t = .blockMapStart then some ⟨[.mapStart p], [.blockKey], rest⟩
    else if p = .none then none
    else some ⟨[.empty p], [], ts⟩

def stepNode (handles : TagHandles) (inBlock indentless : Bool) (ts : List Token) :
    Option Progress :=
  match ts with
  | .aliasOf name :: rest => some ⟨[.aliasOf name], [], rest⟩
  | ts => do
    let (p, ts) ← takeProperties handles ts
    stepContent inBlock indentless p ts

/-! ## Entries, keys and values -/

/-- Expects a node and then `next`, unless the node is left out because one of
    the given tokens comes instead. -/
def nodeUnless (enders : List Token) (node : Expected) (next : List Expected) (ts : List Token) :
    Option Progress :=
  match ts with
  | [] => none
  | t :: _ =>
    if enders.contains t then some ⟨[.empty .none], next, ts⟩
    else some ⟨[], node :: next, ts⟩

def stepBlockEntry : List Token → Option Progress
  | .blockEntry :: ts =>
    nodeUnless [.blockEntry, .blockEnd] (.node true false) [.blockEntry] ts
  | .blockEnd :: ts => some ⟨[.listEnd], [], ts⟩
  | _ => none

def stepIndentlessEntry : List Token → Option Progress
  | [] => none
  | .blockEntry :: ts =>
    nodeUnless [.blockEntry, .key, .value, .blockEnd] (.node true false) [.indentlessEntry] ts
  | ts => some ⟨[.listEnd], [], ts⟩

def stepBlockKey : List Token → Option Progress
  | .key :: ts => nodeUnless [.key, .value, .blockEnd] (.node true true) [.blockValue] ts
  | .blockEnd :: ts => some ⟨[.mapEnd], [], ts⟩
  | _ => none

def stepBlockValue : List Token → Option Progress
  | [] => none
  | .value :: ts => nodeUnless [.key, .value, .blockEnd] (.node true true) [.blockKey] ts
  | ts => some ⟨[.empty .none], [.blockKey], ts⟩

/-- Takes the comma before an entry that is not the first. -/
def takeComma (first : Bool) (ts : List Token) : Option (List Token) :=
  if first then some ts
  else match ts with
    | .flowEntry :: ts => some ts
    | _ => none

/-- A flow list may end in a comma. -/
def stepFlowEntry (first : Bool) (ts : List Token) : Option Progress :=
  match ts with
  | .flowListEnd :: rest => some ⟨[.listEnd], [], rest⟩
  | ts => do
    match ← takeComma first ts with
    | .flowListEnd :: rest => some ⟨[.listEnd], [], rest⟩
    | .key :: rest => some ⟨[.mapStart .none], [.pairKey, .flowEntry false], rest⟩
    | ts => some ⟨[], [.node false false, .flowEntry false], ts⟩

/-- Where the key of a pair is left out, the token in its place is passed over. -/
def stepPairKey : List Token → Option Progress
  | [] => none
  | t :: ts =>
    if [Token.value, .flowEntry, .flowListEnd].contains t then
      some ⟨[.empty .none], [.pairValue], ts⟩
    else some ⟨[], [.node false false, .pairValue], t :: ts⟩

def stepPairValue : List Token → Option Progress
  | [] => none
  | .value :: ts => nodeUnless [.flowEntry, .flowListEnd] (.node false false) [.pairEnd] ts
  | ts => some ⟨[.empty .none], [.pairEnd], ts⟩

def stepPairEnd : List Token → Option Progress
  | [] => none
  | ts => some ⟨[.mapEnd], [], ts⟩

/-- A flow mapping may end in a comma. -/
def stepFlowKey (first : Bool) (ts : List Token) : Option Progress :=
  match ts with
  | .flowMapEnd :: rest => some ⟨[.mapEnd], [], rest⟩
  | ts => do
    match ← takeComma first ts with
    | .flowMapEnd :: rest => some ⟨[.mapEnd], [], rest⟩
    | .key :: rest =>
      nodeUnless [.value, .flowEntry, .flowMapEnd] (.node false false) [.flowValue] rest
    | ts => some ⟨[], [.node false false, .flowNoValue], ts⟩

def stepFlowValue : List Token → Option Progress
  | [] => none
  | .value :: ts => nodeUnless [.flowEntry, .flowMapEnd] (.node false false) [.flowKey false] ts
  | ts => some ⟨[.empty .none], [.flowKey false], ts⟩

def stepFlowNoValue : List Token → Option Progress
  | [] => none
  | ts => some ⟨[.empty .none], [.flowKey false], ts⟩

/-! ## Steps -/

def step (handles : TagHandles) : Expected → List Token → Option Progress
  | .node inBlock indentless, ts => stepNode handles inBlock indentless ts
  | .blockEntry, ts => stepBlockEntry ts
  | .indentlessEntry, ts => stepIndentlessEntry ts
  | .blockKey, ts => stepBlockKey ts
  | .blockValue, ts => stepBlockValue ts
  | .flowEntry first, ts => stepFlowEntry first ts
  | .pairKey, ts => stepPairKey ts
  | .pairValue, ts => stepPairValue ts
  | .pairEnd, ts => stepPairEnd ts
  | .flowKey first, ts => stepFlowKey first ts
  | .flowValue, ts => stepFlowValue ts
  | .flowNoValue, ts => stepFlowNoValue ts

/-- The events of what is expected, and the tokens left, or none after an error.
    `fuel` bounds the number of steps. -/
def eventsOf (handles : TagHandles) :
    Nat → List Expected → List Token → List Event × Option (List Token)
  | _, [], ts => ([], some ts)
  | 0, _ :: _, _ => ([], none)
  | fuel + 1, e :: es, ts =>
    match step handles e ts with
    | none => ([], none)
    | some p =>
      let (events, rest) := eventsOf handles fuel (p.expected ++ es) p.tokens
      (p.events ++ events, rest)

/-! ## Documents -/

/-- The handles that need no directive. -/
def defaultHandles : TagHandles := [("!", Tag.mark), ("!!", Tag.core)]

/-- Takes the directives before a document: its version at most once, and at
    most one prefix for each handle. -/
def takeDirectives (versioned : Bool) (handles : TagHandles) :
    List Token → Option (TagHandles × List Token)
  | .versionDirective major minor :: ts =>
    if versioned || major ≠ 1 || !(minor = 1 || minor = 2) then none
    else takeDirectives true handles ts
  | .tagDirective handle uri :: ts =>
    if (handles.lookup handle).isSome then none
    else takeDirectives versioned (handles ++ [(handle, uri)]) ts
  | ts => some (handles ++ defaultHandles, ts)

/-- Does the token end a document that has no content, or come before its start? -/
def isBetweenDocuments : Token → Bool
  | .versionDirective _ _ | .tagDirective _ _ | .documentStart | .documentEnd | .streamEnd => true
  | _ => false

/-- The events of one document.  The first one needs no start marker where it has
    no directives. -/
def documentEvents (first : Bool) (ts : List Token) : List Event × Option (List Token) :=
  let fuel := 8 * (ts.length + 1)
  let implicit := first && match ts with
    | .versionDirective _ _ :: _ | .tagDirective _ _ :: _ | .documentStart :: _ => false
    | _ => true
  if implicit then eventsOf defaultHandles fuel [.node true false] ts
  else
    match takeDirectives false [] ts with
    | some (handles, .documentStart :: ts) =>
      if ts.head?.any isBetweenDocuments then ([.empty .none], some ts)
      else eventsOf handles fuel [.node true false] ts
    | _ => ([], none)

/-- The documents of a stream of tokens.  After an error there are no more. -/
def documentsOf : Nat → Bool → List Token → List EventList
  | 0, _, _ => []
  | fuel + 1, first, ts =>
    let ts := if first then ts else ts.dropWhile (· = .documentEnd)
    match ts with
    | .streamEnd :: _ => []
    | ts =>
      match documentEvents first ts with
      | (events, some (t :: rest)) =>
        ⟨events, true⟩ ::
          documentsOf fuel false (if t = .documentEnd then rest else t :: rest)
      | (events, _) => [⟨events, false⟩]

/-- The events of the documents of a text, from its tokens. -/
def EventList.ofTokens (ts : List Token) : List EventList := documentsOf (ts.length + 1) true ts

end WorkloadEnv.Yaml
