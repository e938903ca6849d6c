import WorkloadEnv.Config.Source
import WorkloadEnv.Transformer

/-! # The configured minimum version

    The minimum Kubernetes version, from a value that is given or else from the
    variable of its name.  It is resolved once; an empty one, from either
    source, is none. -/

namespace WorkloadEnv

/-- The minimum Kubernetes version; without one nothing is set. -/
structure MinVersionConfig where
  version : Option String
  deriving DecidableEq, Repr

namespace MinVersionConfig

/-- The given version if there is one, else what the environment says. -/
def source (explicit : Option String) : ConfigSource String :=
  .orElse (.given explicit) (.fromEnv minVersionVariable)

/-- Resolves the version. -/
def resolve (explicit : Option String) (env : Environment) :
    Except ConfigError MinVersionConfig := do
  let version ← (source explicit).resolve some env
  .ok ⟨version.filter fun s => s ≠ ""⟩

/-- The transform that sets the version. -/
def transform (c : MinVersionConfig) : MinVersionTransform := .ofVersion? c.version

end MinVersionConfig

end WorkloadEnv
