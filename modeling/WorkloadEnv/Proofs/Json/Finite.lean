import WorkloadEnv.Proofs.Json.Path

/-! # Values whose numbers are finite

    JSON has no word for an infinite number or for none at all, so every number
    of a JSON value is finite.  The type of numbers is wider, and YAML has words
    for them; data that is read from YAML has null in their place.  So only
    values without them are kept by a way through YAML. -/

namespace WorkloadEnv.Json

variable {f g : Json → Json} {name : String} {path : List String} {j x : Json}

mutual

/-- At every depth the numbers are finite. -/
def Finite : Json → Prop
  | float x => x.isFinite = true
  | list js => FiniteItems js
  | object ms => FiniteMembers ms
  | _ => True

/-- Every item has finite numbers. -/
def FiniteItems : List Json → Prop
  | [] => True
  | j :: js => Finite j ∧ FiniteItems js

/-- The value of every member has finite numbers. -/
def FiniteMembers : List (String × Json) → Prop
  | [] => True
  | (_, j) :: ms => Finite j ∧ FiniteMembers ms

end

theorem finite_list_iff {js : List Json} : (list js).Finite ↔ ∀ j ∈ js, j.Finite := by
  rw [Finite]
  induction js with
  | nil => simp [FiniteItems]
  | cons j js ih => simp [FiniteItems, ih]

theorem finite_object_iff {ms : Members Json} : (object ms).Finite ↔ ∀ m ∈ ms, m.2.Finite := by
  rw [Finite]
  induction ms with
  | nil => simp [FiniteMembers]
  | cons m ms ih =>
    obtain ⟨n, j⟩ := m
    simp [FiniteMembers, ih]

theorem Finite.get? (h : j.Finite) (hx : j.get? name = some x) : x.Finite := by
  obtain ⟨ms, rfl⟩ := object_of_get? hx
  exact finite_object_iff.mp h _ (Members.mem_of_get? hx)

theorem Finite.at? (h : j.Finite) (hx : j.at? path = some x) : x.Finite :=
  of_at? Finite.get? h hx

theorem Finite.itemsAt (h : j.Finite) : ∀ y ∈ j.itemsAt name, y.Finite := by
  intro y hy
  obtain ⟨js, hjs, hmem⟩ := exists_of_mem_itemsAt hy
  exact finite_list_iff.mp (h.get? hjs) y hmem

theorem Finite.put {ms : Members Json} (h : (object ms).Finite) (hx : x.Finite) :
    (object (Members.put name x ms)).Finite := by
  refine finite_object_iff.mpr fun m hm => ?_
  rcases Members.mem_put hm with rfl | hm
  · exact hx
  · exact finite_object_iff.mp h m hm

theorem Finite.mapItems (h : j.Finite) (hf : ∀ x : Json, x.Finite → (f x).Finite) :
    (j.mapItems f).Finite := by
  cases j with
  | list js =>
    refine finite_list_iff.mpr fun y hy => ?_
    obtain ⟨x, hx, rfl⟩ := List.mem_map.mp hy
    exact hf x (finite_list_iff.mp h x hx)
  | _ => exact h

theorem Finite.modify {ms : Members Json} (h : (object ms).Finite)
    (hg : ∀ x : Json, x.Finite → (g x).Finite) : (object (Members.modify name g ms)).Finite := by
  refine finite_object_iff.mpr fun m hm => ?_
  obtain ⟨m', hm', rfl⟩ := List.mem_map.mp hm
  have hvalue := finite_object_iff.mp h m' hm'
  split
  · exact hg _ hvalue
  · exact hvalue

theorem Finite.modifyAt (h : j.Finite) (hf : ∀ x : Json, x.Finite → (f x).Finite) :
    (j.modifyAt f path).Finite := preserved_modifyAt Finite.modify h hf

/-- Where the names are distinct, only the value at the end of the path is changed. -/
theorem Finite.modifyAt_of_at? (h : j.Finite) (hj : j.SortedAlong path)
    (hf : ∀ x, j.at? path = some x → (f x).Finite) : (j.modifyAt f path).Finite := by
  cases hx : j.at? path with
  | none =>
    have hself : j.modifyAt f path = j :=
      modifyAt_eq_self hj fun x hx' => absurd (hx.symm.trans hx') (by simp)
    rw [hself]
    exact h
  | some x =>
    have hconst : j.modifyAt f path = j.modifyAt (fun _ => f x) path :=
      modifyAt_congr hj fun y hy => by rw [Option.some.inj (hx.symm.trans hy)]
    rw [hconst]
    exact h.modifyAt fun _ _ => hf x hx

end WorkloadEnv.Json
