import WorkloadEnv.Config.Environment
import WorkloadEnv.Text.Quoted

/-! # Layered configuration

    A configuration value comes from the first source that has something to say:
    a value given in the program, a variable of the environment, or a choice of
    two sources.  A variable that is set but does not parse ends the search with
    an error; it is never passed over. -/

namespace WorkloadEnv

inductive ConfigError where
  /-- A variable holds a text that is no value of the type. -/
  | invalidValue (value name : String)
  deriving DecidableEq, Repr

def ConfigError.message : ConfigError → String
  | invalidValue value name =>
    "value " ++ Text.quoted value ++ " for " ++ Text.quoted name ++ " is invalid."

/-- Where a value of type `α` can come from. -/
inductive ConfigSource (α : Type) where
  /-- A value that is given, or none. -/
  | given (value : Option α)
  /-- The variable of that name. -/
  | fromEnv (name : String)
  /-- The first, or where it has nothing to say the other. -/
  | orElse (first fallback : ConfigSource α)
  deriving Repr

namespace ConfigSource

variable {α : Type}

/-- What a source has to say: nothing, an error, or a value. -/
def value (parse : String → Option α) (env : Environment) :
    ConfigSource α → Option (Except ConfigError α)
  | given v => v.map .ok
  | fromEnv name => (env.text? name).map fun s =>
      match parse s with
      | some a => .ok a
      | none => .error (.invalidValue s name)
  | orElse first fallback =>
    match value parse env first with
    | some r => some r
    | none => value parse env fallback

/-- The value, with nothing to say made a missing one. -/
def resolve (parse : String → Option α) (env : Environment) (source : ConfigSource α) :
    Except ConfigError (Option α) :=
  match source.value parse env with
  | some (.ok a) => .ok (some a)
  | some (.error e) => .error e
  | none => .ok none

end ConfigSource

end WorkloadEnv
