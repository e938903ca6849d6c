import WorkloadEnv.Proofs.Workload.SingleOverride

/-! # Injecting over an earlier injection

    A variable that was injected before is injected over.  On the typed side the
    earlier value leaves no trace (`decode_injected_injected`).  On the raw side
    it may leave one: an entry that reads as the override stays as it is, with
    members no shape names, while an entry that was replaced on the way has lost
    them.  So two raw documents are compared up to the first entry of the
    variable, in which only the name is kept (`bareFirst`); all else is equal
    (`bareVariable_injected_injected`). -/

namespace WorkloadEnv

variable {e e' : EnvVar} {j t : Json}

/-! ## Entries -/

namespace EnvVar

/-- An entry that tells a name and nothing else. -/
def bareEntry (name : String) : Json := .object [("name", .text name)]

/-- Reduces the first entry of a name to its name.  All other entries stay. -/
def bareFirst (name : String) : List Json → List Json
  | [] => []
  | j :: js => if hasName name j then bareEntry name :: js else j :: bareFirst name js

theorem bareFirst_cons_of_hasName {name : String} (h : hasName name j = true) (js : List Json) :
    bareFirst name (j :: js) = bareEntry name :: js := if_pos h

theorem bareFirst_cons_of_not_hasName {name : String} (h : hasName name j = false)
    (js : List Json) : bareFirst name (j :: js) = j :: bareFirst name js := by
  rw [bareFirst, if_neg (by simp [h])]

/-- Whether an entry stays or is replaced, it has the name afterwards. -/
theorem hasName_kept (hj : hasName e.name j = true) :
    hasName e.name (if e.isReadFrom j then j else e.toJson) = true := by
  split
  · exact hj
  · exact hasName_toJson e

/-- **Setting a variable hides an earlier setting**, up to the entry it goes to. -/
theorem bareFirst_setEntry_setEntry (h : e'.name = e.name) (js : List Json) :
    bareFirst e.name (setEntry e (setEntry e' js)) = bareFirst e.name (setEntry e js) := by
  induction js with
  | nil =>
    -- the entry that was appended is the one that is found
    have hfound : hasName e.name e'.toJson = true := h ▸ hasName_toJson e'
    have hnil : ∀ a : EnvVar, setEntry a [] = [a.toJson] := fun _ => rfl
    rw [hnil, hnil, setEntry_cons_of_hasName hfound, bareFirst_cons_of_hasName (hasName_kept hfound),
      bareFirst_cons_of_hasName (hasName_toJson e)]
  | cons j js ih =>
    cases hj : hasName e.name j with
    | true =>
      have hj' : hasName e'.name j = true := h ▸ hj
      have hkept : hasName e.name (if e'.isReadFrom j then j else e'.toJson) = true :=
        h ▸ hasName_kept hj'
      rw [setEntry_cons_of_hasName hj', setEntry_cons_of_hasName hkept, setEntry_cons_of_hasName hj,
        bareFirst_cons_of_hasName (hasName_kept hkept), bareFirst_cons_of_hasName (hasName_kept hj)]
    | false =>
      have hj' : hasName e'.name j = false := h ▸ hj
      rw [setEntry_cons_of_not_hasName hj', setEntry_cons_of_not_hasName hj,
        setEntry_cons_of_not_hasName hj, bareFirst_cons_of_not_hasName hj,
        bareFirst_cons_of_not_hasName hj, ih]

end EnvVar

/-! ## Raw containers -/

namespace Json

/-- Changes the items of a list; other values stay. -/
def onItems (f : List Json → List Json) : Json → Json
  | list js => list (f js)
  | j => j

/-- Reduces the first entry of a variable to its name, in a raw container. -/
def bareVariable (name : String) (c : Json) : Json :=
  c.modifyAt (onItems (EnvVar.bareFirst name)) ["env"]

/-- In one raw container the second setting hides the first. -/
theorem bareVariable_setVariable_setVariable (h : e'.name = e.name) {c : Json} (hc : c.Ordered) :
    bareVariable e.name (setVariable e (setVariable e' c)) =
      bareVariable e.name (setVariable e c) := by
  cases c with
  | object ms =>
    -- baring the member that was put is putting the bared one
    have hbare : ∀ js : List Json, bareVariable e.name (object (Members.put "env" (list js) ms)) =
        object (Members.put "env" (list (EnvVar.bareFirst e.name js))
          (Members.modify "env" (modifyAt (onItems (EnvVar.bareFirst e.name)) []) ms)) := by
      intro js
      rw [bareVariable, modifyAt_object, Members.modify_put, if_pos rfl, modifyAt_nil]
      rfl
    have htwice : setVariable e (setVariable e' (object ms)) = object (Members.put "env"
        (list (EnvVar.setEntry e (EnvVar.setEntry e' ((object ms).itemsAt "env")))) ms) := by
      have hitems : (object (Members.put "env"
          (list (EnvVar.setEntry e' ((object ms).itemsAt "env"))) ms)).itemsAt "env" =
          EnvVar.setEntry e' ((object ms).itemsAt "env") :=
        itemsAt_of_get? (Members.get?_put_self ms)
      simp only [setVariable, hitems, Members.put_put_self]
    have honce : setVariable e (object ms) = object (Members.put "env"
        (list (EnvVar.setEntry e ((object ms).itemsAt "env"))) ms) := rfl
    rw [htwice, honce, hbare, hbare, EnvVar.bareFirst_setEntry_setEntry h]
  | _ => rfl

end Json

/-! ## Raw pod specs -/

namespace PodSpec

open Kubernetes

/-- Up to the first entry of the variable, injecting hides an earlier injection. -/
theorem bareVariable_inject_inject (ht : t.Ordered) (h : e'.name = e.name) (he : e.name ≠ "") :
    (inject [e] (inject [e'] t)).eachContainer (Json.bareVariable e.name) =
      (inject [e] t).eachContainer (Json.bareVariable e.name) := by
  cases hread : podSpec.read t with
  | error cause => rw [inject_of_read_error hread]
  | ok n =>
    obtain ⟨n', hn', -⟩ := read_inject ht hread [e']
    have hfirst : inject [e'] t = t.eachContainer (Json.setVariable e') :=
      inject_eq_eachContainer ht hread (h ▸ he)
    rw [inject_eq_eachContainer (ordered_inject ht _) hn' he, hfirst,
      inject_eq_eachContainer ht hread he, Json.eachContainer_eachContainer,
      Json.eachContainer_eachContainer, Json.eachContainer_eachContainer]
    exact Json.eachContainer_congr ht fun c hc => Json.bareVariable_setVariable_setVariable h hc

end PodSpec

/-! ## Documents -/

namespace Workload

variable {d : Document} {kind : WorkloadKind} {w : Workload}

/-- **On the typed side an earlier injection of the same names leaves no trace.** -/
theorem decode_injected_injected {o o' : List EnvVar} (hd : d.WellFormed)
    (hw : decode kind d = .ok w) (h : o.map EnvVar.name = o'.map EnvVar.name) :
    decode kind (injected o' (injected o d)) = decode kind (injected o' d) := by
  have hmerge : PodSpec.mergeEnv o' ∘ PodSpec.mergeEnv o = PodSpec.mergeEnv o' :=
    funext (PodSpec.mergeEnv_mergeEnv h)
  have htwice := decode_injected (wellFormed_injected hd o) (decode_injected hd hw o) o'
  rw [htwice, modifyPodSpec_modifyPodSpec, hmerge, decode_injected hd hw o']

/-- A document with the first entry of a variable reduced to its name, in each
    container and init container of its pod template. -/
def bareVariable (name : String) (j : Json) : Json :=
  j.modifyAt (Json.eachContainer (Json.bareVariable name)) podSpecPath

/-- **On the raw side it leaves a trace in the first entry of the variable at most.** -/
theorem bareVariable_injected_injected (hd : d.WellFormed) (h : e'.name = e.name)
    (he : e.name ≠ "") :
    bareVariable e.name (injected [e] (injected [e'] d)).toJson =
      bareVariable e.name (injected [e] d).toJson := by
  have hsorted : d.toJson.SortedAlong podSpecPath := hd.sortedAlong_toJson spec_notMem_headerNames
  rw [toJson_injected, toJson_injected, toJson_injected, bareVariable, bareVariable,
    Json.modifyAt_modifyAt_self, Json.modifyAt_modifyAt_self, Json.modifyAt_modifyAt_self]
  refine Json.modifyAt_congr hsorted fun x hx => ?_
  rw [at?_toJson hd] at hx
  exact PodSpec.bareVariable_inject_inject (hd.ordered.at? hx) h he

end Workload

end WorkloadEnv
