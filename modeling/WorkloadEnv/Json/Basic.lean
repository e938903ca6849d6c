import WorkloadEnv.Number.Double

/-! # JSON values

    A value is a tree; the members of an object are a list of names and values.
    Everything the library builds keeps the names of an object distinct and in
    increasing order of their code points (`Json.Ordered`), so that two values
    with the same members are equal. -/

namespace WorkloadEnv

/-- A JSON value.  Integers and floating-point numbers are told apart. -/
inductive Json where
  | null
  | bool (b : Bool)
  | int (n : Int)
  | float (x : Double)
  | text (s : String)
  | list (items : List Json)
  | object (members : List (String × Json))
  deriving Repr, Inhabited

/-! ## Members by name -/

/-- Values by name, as the members of an object. -/
abbrev Members (α : Type) := List (String × α)

namespace Members

variable {α β : Type}

/-- The value of the first member of that name. -/
def get? (name : String) : Members α → Option α
  | [] => none
  | (n, a) :: ms => if n = name then some a else get? name ms

/-- Sets a member: in place when the name is there, else before the first greater name. -/
def put (name : String) (a : α) : Members α → Members α
  | [] => [(name, a)]
  | (n, b) :: ms =>
    if n = name then (name, a) :: ms
    else if name < n then (name, a) :: (n, b) :: ms
    else (n, b) :: put name a ms

/-- Leaves out every member of that name. -/
def erase (name : String) (ms : Members α) : Members α :=
  ms.filter fun m => m.1 ≠ name

/-- Changes the value of the members of that name. -/
def modify (name : String) (f : α → α) (ms : Members α) : Members α :=
  ms.map fun m => if m.1 = name then (m.1, f m.2) else m

/-- Sets the members of the second list, in its order. -/
def putAll (ms : Members α) (more : Members α) : Members α :=
  more.foldl (fun acc m => put m.1 m.2 acc) ms

/-- Names are distinct and increasing. -/
def Sorted (ms : Members α) : Prop := ms.Pairwise fun a b => a.1 < b.1

end Members

namespace Json

/-! ## Access -/

/-- The members of an object; other values have none. -/
def members : Json → Members Json
  | object ms => ms
  | _ => []

/-- The items of a list; other values have none. -/
def items : Json → List Json
  | list js => js
  | _ => []

/-- The member of that name of an object. -/
def get? (name : String) (j : Json) : Option Json := Members.get? name j.members

/-- The text of a text value. -/
def text? : Json → Option String
  | text s => some s
  | _ => none

/-- The value at the end of a path of member names. -/
def at? : List String → Json → Option Json
  | [], j => some j
  | name :: path, j => (j.get? name).bind (at? path)

/-- Applies `f` at the end of a path of member names.  Where the path leads
    nowhere, the value stays as it is. -/
def modifyAt (f : Json → Json) : List String → Json → Json
  | [], j => f j
  | name :: path, object ms => object (Members.modify name (modifyAt f path) ms)
  | _ :: _, j => j

/-! ## Order -/

mutual

/-- At every depth the names of an object are distinct and increasing. -/
def Ordered : Json → Prop
  | list js => OrderedItems js
  | object ms => Members.Sorted ms ∧ OrderedMembers ms
  | _ => True

/-- Every item is ordered. -/
def OrderedItems : List Json → Prop
  | [] => True
  | j :: js => Ordered j ∧ OrderedItems js

/-- The value of every member is ordered. -/
def OrderedMembers : List (String × Json) → Prop
  | [] => True
  | (_, j) :: ms => Ordered j ∧ OrderedMembers ms

end

end Json

end WorkloadEnv
