import WorkloadEnv.Json.Basic

/-! # The process environment

    Variables by name, each holding bytes.  A variable whose bytes are no text
    is read as one that is not set. -/

namespace WorkloadEnv

/-- The variables that are set. -/
structure Environment where
  bindings : Members ByteArray

namespace Environment

def empty : Environment := ⟨[]⟩

/-- The text of a variable, if it is set and holds one. -/
def text? (name : String) (env : Environment) : Option String :=
  (Members.get? name env.bindings).bind String.fromUTF8?

/-- Sets a variable to bytes. -/
def setBytes (name : String) (bytes : ByteArray) (env : Environment) : Environment :=
  ⟨Members.put name bytes env.bindings⟩

/-- Sets a variable to a text, or unsets it. -/
def assign (name : String) (value : Option String) (env : Environment) : Environment :=
  match value with
  | some s => env.setBytes name s.toUTF8
  | none => ⟨Members.erase name env.bindings⟩

/-- Assigns in the order of the list. -/
def assignAll (assignments : List (String × Option String)) (env : Environment) : Environment :=
  assignments.foldl (fun env a => env.assign a.1 a.2) env

/-- Assigns in the order of the list, and gives what each variable held just before. -/
def exchange : List (String × Option String) → Environment →
    List (String × Option String) × Environment
  | [], env => ([], env)
  | (name, value) :: rest, env =>
    let (before, after) := exchange rest (env.assign name value)
    ((name, env.text? name) :: before, after)

/-- Runs `body` with variables assigned, and afterwards puts back what they held,
    in the order of the list: a variable listed twice ends with what it was first
    assigned. -/
def withAssigned {α : Type} (assignments : List (String × Option String))
    (body : Environment → α × Environment) (env : Environment) : α × Environment :=
  let (before, inside) := exchange assignments env
  let (result, after) := body inside
  (result, after.assignAll before)

end Environment

end WorkloadEnv
