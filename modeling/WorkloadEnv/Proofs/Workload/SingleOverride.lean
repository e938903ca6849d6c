import WorkloadEnv.Proofs.Json.Finite
import WorkloadEnv.Proofs.Workload.Injection

/-! # A single override on raw pod specs

    Injecting goes through the typed reading: the containers are merged and then
    written over the raw ones.  For a single override the way back can be cut
    short.  Each raw container is changed for itself, by setting one entry of its
    environment, and nothing of the typed reading is left
    (`PodSpec.inject_eq_eachContainer`).  So what an injection does to the raw
    containers can be told from what it does to one of them. -/

namespace WorkloadEnv

variable {e : EnvVar} {j t n : Json} {js : List Json} {f g : Json → Json}

/-! ## Raw containers -/

/-- Setting an entry leaves the entries that were there and its own. -/
theorem EnvVar.mem_setEntry (h : j ∈ setEntry e js) : j = e.toJson ∨ j ∈ js := by
  induction js with
  | nil => exact .inl (List.mem_singleton.mp h)
  | cons j' js ih =>
    cases hname : hasName e.name j' with
    | true =>
      rw [setEntry_cons_of_hasName hname] at h
      rcases List.mem_cons.mp h with rfl | h
      · -- the entry with the name stays or is replaced
        split
        · exact .inr List.mem_cons_self
        · exact .inl rfl
      · exact .inr (List.mem_cons_of_mem _ h)
    | false =>
      rw [setEntry_cons_of_not_hasName hname] at h
      rcases List.mem_cons.mp h with rfl | h
      · exact .inr List.mem_cons_self
      · exact (ih h).imp_right (List.mem_cons_of_mem _)

namespace Json

/-- Sets a variable in the environment of a raw container.  What is no list of
    entries counts as an empty one. -/
def setVariable (e : EnvVar) (c : Json) : Json :=
  match c with
  | object ms => object (Members.put "env" (list (EnvVar.setEntry e (c.itemsAt "env"))) ms)
  | c => c

theorem Finite.setVariable (h : j.Finite) (he : e.toJson.Finite) : (j.setVariable e).Finite := by
  cases j with
  | object ms =>
    have hentries : (list (EnvVar.setEntry e ((object ms).itemsAt "env"))).Finite := by
      refine finite_list_iff.mpr fun y hy => ?_
      rcases EnvVar.mem_setEntry hy with rfl | hy
      · exact he
      · exact h.itemsAt y hy
    exact h.put hentries
  | _ => exact h

/-! ## Raw pod specs -/

/-- Changes every container and init container of a raw pod spec. -/
def eachContainer (f : Json → Json) (t : Json) : Json :=
  (t.modifyAt (mapItems f) ["containers"]).modifyAt (mapItems f) ["initContainers"]

theorem mapItems_comp (f g : Json → Json) : mapItems f ∘ mapItems g = mapItems (f ∘ g) := by
  funext j
  cases j with
  | list js => exact congrArg list (List.map_map)
  | _ => rfl

/-- Changing each container twice is one change of each. -/
theorem eachContainer_eachContainer (f g : Json → Json) (t : Json) :
    eachContainer f (eachContainer g t) = eachContainer (f ∘ g) t := by
  unfold eachContainer
  -- each list is changed twice, next to the other one
  rw [modifyAt_comm (by decide), modifyAt_modifyAt_self, mapItems_comp,
    modifyAt_comm (by decide), modifyAt_modifyAt_self, mapItems_comp]

theorem mapItems_congr (hj : j.Ordered) (h : ∀ c : Json, c.Ordered → f c = g c) :
    mapItems f j = mapItems g j := by
  cases j with
  | list js =>
    have hmap : js.map f = js.map g :=
      List.map_congr_left fun c hc => h c (ordered_list_iff.mp hj c hc)
    exact congrArg list hmap
  | _ => rfl

/-- What is done to each list of a pod spec depends on that list alone. -/
theorem modifyAt_lists_congr {f f' g g' : Json → Json} (ht : t.Ordered)
    (h : ∀ x, t.get? "containers" = some x → f x = g x)
    (h' : ∀ x, t.get? "initContainers" = some x → f' x = g' x) :
    (t.modifyAt f ["containers"]).modifyAt f' ["initContainers"] =
      (t.modifyAt g ["containers"]).modifyAt g' ["initContainers"] := by
  have hfirst : t.modifyAt f ["containers"] = t.modifyAt g ["containers"] := by
    refine modifyAt_congr (ht.sortedAlong _) fun x hx => h x ?_
    rwa [at?_singleton] at hx
  have hsorted : (t.modifyAt g ["containers"]).SortedAlong ["initContainers"] := by
    refine ⟨?_, fun _ _ => trivial⟩
    rw [members_modifyAt]
    exact (ht.sortedAlong ["containers"]).1.modify
  rw [hfirst]
  refine modifyAt_congr hsorted fun x hx => h' x ?_
  rwa [at?_modifyAt_ne (by decide), at?_singleton] at hx

theorem eachContainer_congr (ht : t.Ordered) (h : ∀ c : Json, c.Ordered → f c = g c) :
    eachContainer f t = eachContainer g t :=
  modifyAt_lists_congr ht (fun _ hx => mapItems_congr (ht.get? hx) h)
    (fun _ hx => mapItems_congr (ht.get? hx) h)

theorem itemsAt_modifyAt_mapItems (name : String) (f : Json → Json) (t : Json) :
    (t.modifyAt (mapItems f) [name]).itemsAt name = (t.itemsAt name).map f := by
  rw [itemsAt, itemsAt, get?_modifyAt_self]
  cases t.get? name with
  | none => rfl
  | some x =>
    cases x with
    | list js => rfl
    | _ => rfl

theorem Finite.eachContainer (h : t.Finite) (hf : ∀ x : Json, x.Finite → (f x).Finite) :
    (t.eachContainer f).Finite := by
  have hitems : ∀ x : Json, x.Finite → (x.mapItems f).Finite := fun x hx => hx.mapItems hf
  exact (h.modifyAt hitems).modifyAt hitems

end Json

/-! ## Injecting -/

namespace Container

variable {c : Container} {cs : List Container}

/-- Only objects read as containers. -/
theorem ReadsAll.object (h : ReadsAll js cs) : ∀ j ∈ js, ∃ ms, j = .object ms := by
  induction h with
  | nil =>
    intro j hj
    cases hj
  | cons hhead _ ih =>
    intro j hj
    rcases List.mem_cons.mp hj with rfl | hj
    · exact hhead.object
    · exact ih j hj

/-- Writing the environment with one override is setting the override. -/
theorem Reads.writeOver_eq_setVariable (h : Reads j c) (hj : j.Ordered) (he : e.name ≠ "") :
    (c.mergeEnv [e]).writeOver j = j.setVariable e := by
  obtain ⟨ms, rfl⟩ := h.object
  have hwritten := EnvVar.writeOver_set he hj.itemsAt (h.entries hj)
  show Json.object (Members.put "env" (.list (EnvVar.writeOver (EnvVar.set e (c.env.getD []))
    ((Json.object ms).itemsAt "env"))) ms) = _
  rw [hwritten]
  rfl

theorem ReadsAll.writeEach_eq_map (h : ReadsAll js cs) (hjs : ∀ j ∈ js, j.Ordered)
    (he : e.name ≠ "") :
    Container.writeEach (cs.map (mergeEnv [e])) js = js.map (Json.setVariable e) := by
  induction h with
  | nil => rfl
  | cons hj _ ih =>
    have hhead := hj.writeOver_eq_setVariable (hjs _ List.mem_cons_self) he
    have htail := ih fun j hj => hjs j (List.mem_cons_of_mem _ hj)
    rw [List.map_cons, Container.writeEach, List.map_cons, hhead, htail]

/-- Writing to a list of raw containers that read as the typed ones. -/
theorem writeList_eq_mapItems {x : Json} (h : ReadsAll x.items cs) (hx : x.Ordered)
    (he : e.name ≠ "") :
    writeList (cs.map (mergeEnv [e])) x = x.mapItems (Json.setVariable e) := by
  cases x with
  | list js => exact congrArg Json.list (h.writeEach_eq_map (Json.ordered_list_iff.mp hx) he)
  | _ => rfl

end Container

namespace PodSpec

open Kubernetes

/-- The members of a pod spec whose items have an environment to set. -/
def listNames : List String := ["containers", "initContainers"]

theorem itemsAt_eachContainer {name : String} (f : Json → Json) (t : Json)
    (hname : name ∈ listNames) :
    (t.eachContainer f).itemsAt name = (t.itemsAt name).map f := by
  unfold Json.eachContainer
  rcases List.mem_cons.mp hname with rfl | hname
  · rw [Json.itemsAt_modifyAt_ne (by decide), Json.itemsAt_modifyAt_mapItems]
  · obtain rfl := List.mem_singleton.mp hname
    rw [Json.itemsAt_modifyAt_mapItems, Json.itemsAt_modifyAt_ne (by decide)]

/-- **A single override changes each raw container for itself.** -/
theorem inject_eq_eachContainer (ht : t.Ordered) (h : podSpec.read t = .ok n)
    (he : e.name ≠ "") : inject [e] t = t.eachContainer (Json.setVariable e) := by
  obtain ⟨hcontainers, hinit⟩ := readsAll_of_read ht h
  rw [inject_of_read h, writeOver_eq, initContainers_mergeEnv]
  refine Json.modifyAt_lists_congr ht (fun x hx => ?_) (fun x hx => ?_)
  · rw [Json.itemsAt, hx] at hcontainers
    exact Container.writeList_eq_mapItems hcontainers (ht.get? hx) he
  · rw [Json.itemsAt, hx] at hinit
    exact Container.writeList_eq_mapItems hinit (ht.get? hx) he

/-- What is no pod spec stays as it is, and in a pod spec each container is changed. -/
theorem finite_inject (ht : t.Ordered) (hfinite : t.Finite) (he : e.name ≠ "")
    (hentry : e.toJson.Finite) : (inject [e] t).Finite := by
  cases hread : podSpec.read t with
  | error cause => rwa [inject_of_read_error hread]
  | ok n =>
    rw [inject_eq_eachContainer ht hread he]
    exact hfinite.eachContainer fun x hx => hx.setVariable hentry

end PodSpec

end WorkloadEnv
