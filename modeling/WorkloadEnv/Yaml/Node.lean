import WorkloadEnv.Yaml.Event.Basic

/-! # Nodes

    The tree of a document, with the aliases in it resolved to the numbers of
    the nodes they repeat.  An anchor gets as its number how many names of
    anchors there are when it is met; a name that is used again does not add to
    their number, so that two anchors can have the same one, and then the later
    node counts for both. -/

namespace WorkloadEnv.Yaml

inductive Node where
  | scalar (tag : Option Tag) (plain : Bool) (text : String)
  | list (tag : Option Tag) (items : List Node)
  | map (tag : Option Tag) (entries : List (Node × Node))
  /-- The node of that number once more. -/
  | aliasOf (number : Nat)
  /-- The events of the document end where this node should be. -/
  | missing
  deriving Repr, Inhabited

/-- An event with the number of its anchor, or of the anchor it is an alias of. -/
structure NumberedEvent where
  event : Event
  number : Option Nat
  deriving Repr

namespace NumberedEvent

/-! ## Numbers -/

/-- Numbers the anchors of a document and resolves its aliases.  An alias of a
    name that has not been met is an error, so the events end there; the second
    part tells whether they are all. -/
def ofEvents (names : List (String × Nat)) : List Event → List NumberedEvent × Bool
  | [] => ([], true)
  | .aliasOf name :: es =>
    match names.lookup name with
    | none => ([], false)
    | some number =>
      let (rest, complete) := ofEvents names es
      (⟨.aliasOf name, some number⟩ :: rest, complete)
  | e :: es =>
    match e.properties.anchor with
    | none =>
      let (rest, complete) := ofEvents names es
      (⟨e, none⟩ :: rest, complete)
    | some name =>
      let number := names.length
      let others := names.filter fun n => n.1 ≠ name
      let (rest, complete) := ofEvents ((name, number) :: others) es
      (⟨e, some number⟩ :: rest, complete)

/-- Does the node of that number start with the event? -/
def isTarget (number : Nat) (e : NumberedEvent) : Bool :=
  e.number = some number && match e.event with
    | .aliasOf _ => false
    | _ => true

/-- The events from the last node of that number on. -/
def target (number : Nat) : List NumberedEvent → List NumberedEvent
  | [] => []
  | e :: es =>
    match target number es with
    | [] => if isTarget number e then e :: es else []
    | found => found

end NumberedEvent

namespace Node

/-! ## Trees -/

mutual

/-- The node that starts with the first event; `fuel` bounds the number of events. -/
def ofEvents : Nat → List NumberedEvent → Node × List NumberedEvent
  | 0, es => (missing, es)
  | _, [] => (missing, [])
  | fuel + 1, e :: es =>
    match e.event with
    | .scalar p plain text => (scalar p.tag plain text, es)
    | .aliasOf _ => (aliasOf (e.number.getD 0), es)
    | .listStart p =>
      let (items, es) := itemsOf fuel es
      (list p.tag items, es)
    | .mapStart p =>
      let (entries, es) := entriesOf fuel es
      (map p.tag entries, es)
    | .listEnd | .mapEnd => (missing, es)

/-- The items up to the end of a list. -/
def itemsOf : Nat → List NumberedEvent → List Node × List NumberedEvent
  | 0, es => ([missing], es)
  | _, [] => ([missing], [])
  | fuel + 1, e :: es =>
    if e.event = .listEnd then ([], es)
    else
      let (item, es) := ofEvents fuel (e :: es)
      let (items, es) := itemsOf fuel es
      (item :: items, es)

/-- The entries up to the end of a mapping. -/
def entriesOf : Nat → List NumberedEvent → List (Node × Node) × List NumberedEvent
  | 0, es => ([(missing, missing)], es)
  | _, [] => ([(missing, missing)], [])
  | fuel + 1, e :: es =>
    if e.event = .mapEnd then ([], es)
    else
      let (key, es) := ofEvents fuel (e :: es)
      let (value, es) := ofEvents fuel es
      let (entries, es) := entriesOf fuel es
      ((key, value) :: entries, es)

end

/-- The node that the given events start with. -/
def ofNumbered (es : List NumberedEvent) : Node := (ofEvents (2 * es.length + 2) es).1

end Node

/-- The nodes of a document. -/
structure NodeTree where
  root : Node
  /-- The nodes that aliases repeat, by their numbers. -/
  targets : List Node
  /-- How many events the document has. -/
  size : Nat
  /-- Are the events all of the document? -/
  isComplete : Bool
  deriving Repr

/-- The tree of a document. -/
def NodeTree.ofEvents (d : EventList) : NodeTree :=
  let (es, resolved) := NumberedEvent.ofEvents [] d.events
  let count := (es.filterMap (·.number)).foldl (fun n k => max n (k + 1)) 0
  { root := Node.ofNumbered es
    targets := (List.range count).map fun k => Node.ofNumbered (NumberedEvent.target k es)
    size := es.length
    isComplete := resolved && d.isComplete }

end WorkloadEnv.Yaml
