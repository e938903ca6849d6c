import WorkloadEnv.Yaml.Event.Grammar
import WorkloadEnv.Yaml.Node
import WorkloadEnv.Yaml.Scalar
import WorkloadEnv.Yaml.Token.Lexer

/-! # Reading YAML

    A text is a stream of documents, and each of them is read on its own: to a
    value, or to the reason why it has none (`Yaml.read`).  An alias stands for
    the node of its anchor, built anew each time.  Two limits keep that finite:
    nodes nest to a depth of 128, and a document may repeat nodes a hundred
    times for each of its events. -/

namespace WorkloadEnv.Yaml

/-- Why a document has no value. -/
inductive ReadFailure where
  /-- The document is not well formed, or nests too deep. -/
  | malformed
  /-- Nodes are repeated too often. -/
  | repetitionLimit
  deriving DecidableEq, Repr

/-! ## Values of nodes -/

/-- Building counts the aliases it has followed. -/
abbrev Build := StateT Nat (Except ReadFailure)

def malformed {α : Type} : Build α := throw .malformed

/-- The value, which has to be there. -/
def present {α : Type} : Option α → Build α
  | some a => pure a
  | none => malformed

namespace NodeTree

/-- The node itself, or the one it is an alias of. -/
def resolve (t : NodeTree) : Node → Build Node
  | .aliasOf number => do
    let followed ← get
    if 100 * t.size < followed + 1 then throw .repetitionLimit
    else
      set (followed + 1)
      present t.targets[number]?
  | n => pure n

/-- Puts the value under its tag, if that is one of the document's own. -/
def withTag (tag : Option Tag) (v : Value) : Value :=
  match TagKind.of tag with
  | .own name => .tagged name v
  | _ => v

/-- The entries of a mapping, with a key at most once. -/
def readEntries (read : Node → Build Value) :
    List (Value × Value) → List (Node × Node) → Build (List (Value × Value))
  | acc, [] => pure acc.reverse
  | acc, (k, v) :: entries => do
    let key ← read k
    if acc.any fun e => e.1.same key then malformed
    else
      let value ← read v
      readEntries read ((key, value) :: acc) entries

/-- The value of a node that is no alias, with `below` to read the nodes in it.
    Without it the node lies too deep for any. -/
def build (below : Option (Node → Build Value)) : Node → Build Value
  | .scalar tag plain text => present (scalarValue? tag plain text)
  | .list tag items =>
    match below with
    | some read => do return withTag tag (.list (← items.mapM read))
    | none => malformed
  | .map tag entries =>
    match below with
    | some read => do return withTag tag (.map (← readEntries read [] entries))
    | none => malformed
  | .aliasOf _ | .missing => malformed

/-- The value of a node that may nest to the given depth. -/
def read (t : NodeTree) : Nat → Node → Build Value
  | 0, node => do build none (← t.resolve node)
  | depth + 1, node => do build (some (read t depth)) (← t.resolve node)

/-- The value of a document. -/
def value (t : NodeTree) : Except ReadFailure Value := do
  let (v, _) ← (t.read 128 t.root).run 0
  if t.isComplete then return v else throw .malformed

end NodeTree

/-! ## Documents -/

/-- The values of the documents of a text.  After one that ends in an error of
    the text there are no more. -/
def read (s : String) : List (Except ReadFailure Value) :=
  (EventList.ofTokens (tokens s)).map fun d => (NodeTree.ofEvents d).value

end WorkloadEnv.Yaml
