import WorkloadEnv.Yaml.Tag

/-! # Tokens

    The tokens of a YAML text.  The structure that indentation gives is made
    explicit: blocks have a start and an end, and a key is announced before its
    first token. -/

namespace WorkloadEnv.Yaml

inductive Token where
  | streamEnd
  | versionDirective (major minor : Nat)
  | tagDirective (handle : String) (uri : Tag)
  | documentStart
  | documentEnd
  | blockListStart
  | blockMapStart
  | blockEnd
  | flowListStart
  | flowListEnd
  | flowMapStart
  | flowMapEnd
  | blockEntry
  | flowEntry
  | key
  | value
  | aliasOf (name : String)
  | anchor (name : String)
  | tag (handle : String) (suffix : Tag)
  | scalar (plain : Bool) (text : String)
  deriving DecidableEq, Repr

end WorkloadEnv.Yaml
