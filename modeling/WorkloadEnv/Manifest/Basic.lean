import WorkloadEnv.Transformer

/-! # Manifests

    A manifest is a list of resources.  A transformer is applied to each of them
    on its own: one it fails on is left as it was and reported, and the others
    are transformed all the same. -/

namespace WorkloadEnv

structure Manifest where
  resources : List Document
  deriving Repr, Inhabited

/-- A failure to transform, with the resource it happened on. -/
structure ResourceError where
  /-- The place of the resource in its manifest, from zero. -/
  index : Nat
  /-- The kind the resource tells, empty without type information. -/
  kind : String
  name : String
  source : TransformError
  deriving DecidableEq, Repr

def ResourceError.message (e : ResourceError) : String :=
  "resource #" ++ toString e.index ++ " (" ++ e.kind ++ " `" ++ e.name ++ "`): " ++ e.source.message

namespace Manifest

/-- The manifest without resources. -/
def empty : Manifest := ⟨[]⟩

/-- How far a pass over the resources has come. -/
structure Progress where
  /-- The resources that were visited, as they were left. -/
  resources : List Document
  failures : List ResourceError

/-- Applies a transformer to the next resource.  One that it fails on is put back
    as it was, whatever was done to it, and is reported as it then is. -/
def Progress.visit (t : Transformer) (index : Nat) (d : Document) (p : Progress) : Progress :=
  let original := d
  match t d with
  | (d, none) => { p with resources := p.resources ++ [d] }
  | (_, some source) =>
    let d := original
    let failure : ResourceError := { index, kind := d.kindName, name := d.name, source }
    { resources := p.resources ++ [d], failures := p.failures ++ [failure] }

/-- Visits the resources that are left, of which the first has the given index. -/
def Progress.run (t : Transformer) : Nat → List Document → Progress → Progress
  | _, [], p => p
  | index, d :: ds, p => run t (index + 1) ds (p.visit t index d)

/-- Applies a transformer to every resource. -/
def transform (t : Transformer) (m : Manifest) : Manifest × List ResourceError :=
  let p := Progress.run t 0 m.resources ⟨[], []⟩
  (⟨p.resources⟩, p.failures)

end Manifest

end WorkloadEnv
