import WorkloadEnv.Yaml.Tag

/-! # Events

    What a YAML document consists of, in the order of its text: scalars, aliases,
    and the starts and ends of lists and mappings.  In a mapping keys and values
    take turns. -/

namespace WorkloadEnv.Yaml

/-- What may stand in front of a node. -/
structure Properties where
  anchor : Option String
  tag : Option Tag
  deriving DecidableEq, Repr

inductive Event where
  | aliasOf (name : String)
  | scalar (properties : Properties) (plain : Bool) (text : String)
  | listStart (properties : Properties)
  | listEnd
  | mapStart (properties : Properties)
  | mapEnd
  deriving DecidableEq, Repr

namespace Properties

def none : Properties := ⟨.none, .none⟩

end Properties

namespace Event

/-- The scalar of a node that is left out. -/
def empty (p : Properties) : Event := scalar p true ""

/-- The properties of the node that starts with the event. -/
def properties : Event → Properties
  | scalar p _ _ | listStart p | mapStart p => p
  | _ => .none

end Event

/-- The events of a document, and whether they are all of it.  Where the text
    has an error the events before it are kept. -/
structure EventList where
  events : List Event
  isComplete : Bool
  deriving DecidableEq, Repr

end WorkloadEnv.Yaml
