import WorkloadEnv.EnvVar.Basic

/-! # Merging environments

    Overrides are set one after the other.  An override takes the place of the
    first entry of its name, as a whole, or goes to the end; nothing is removed
    and nothing else is touched. -/

namespace WorkloadEnv.EnvVar

/-- Puts a variable in the place of the first of its name, or at the end. -/
def set (e : EnvVar) : List EnvVar → List EnvVar
  | [] => [e]
  | t :: ts => if t.name = e.name then e :: ts else t :: set e ts

/-- Sets the overrides in their order; a later one sees what an earlier one did. -/
def merge (overrides target : List EnvVar) : List EnvVar :=
  overrides.foldl (fun env e => set e env) target

/-- An environment that is missing is merged as an empty one. -/
def mergeOptional (overrides : List EnvVar) (target : Option (List EnvVar)) :
    Option (List EnvVar) :=
  some (merge overrides (target.getD []))

end WorkloadEnv.EnvVar
