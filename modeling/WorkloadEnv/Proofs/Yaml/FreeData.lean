import WorkloadEnv.Proofs.Decode.Exact
import WorkloadEnv.Proofs.Yaml.Carried

/-! # Free-form data in YAML

    What is kept as data of a YAML value loses its tags and has null for every
    number that is not finite.  The counterpart of a JSON value has no tags, so
    it keeps all its entries if its numbers are finite and loses one if not
    (`faithful_free`).  With this the shapes of Kubernetes tell what YAML
    documents keep. -/

namespace WorkloadEnv.Yaml.Value

open Json (SameEntries)
open Shape (KeptBy Faithful textEntries)

/-! ## Lists and mappings -/

theorem freeItems_eq (vs : List Value) : freeItems vs = Shape.readItems free vs := by
  induction vs with
  | nil => rfl
  | cons v vs ih => rw [freeItems, Shape.readItems, ih]

/-- Where the keys are texts, it does not matter how others would be told. -/
theorem freeEntries_eq (ms : Members Json) (expected : String) (acc : Members Json) :
    freeEntries expected acc (ofMembers ms) =
      Shape.readEntries free acc (textEntries (Members.mapValues ofJson ms)) := by
  induction ms generalizing expected acc with
  | nil => rfl
  | cons m ms ih =>
    obtain ⟨name, j⟩ := m
    show _ = Shape.readEntries free acc
      ((.text name, ofJson j) :: textEntries (Members.mapValues ofJson ms))
    rw [ofMembers, freeEntries, Shape.readEntries]
    show (free (ofJson j) >>= fun n => freeEntries "a string" (Members.put name n acc)
      (ofMembers ms)) = _
    cases free (ofJson j) with
    | error e => rfl
    | ok n => exact ih "a string" (Members.put name n acc)

theorem free_list (js : List Json) :
    free (ofJson (.list js)) = (Shape.readItems free (js.map ofJson)).map .list := by
  rw [ofJson, free, freeItems_eq, ofItems_eq_map]

theorem free_object (ms : Members Json) :
    free (ofJson (.object ms)) =
      (Shape.readEntries free [] (textEntries (Members.mapValues ofJson ms))).map .object := by
  rw [ofJson, free, freeEntries_eq]

/-- A list is kept if each of its items is. -/
theorem keptBy_free_list_iff {js : List Json} :
    KeptBy free ofJson (.list js) ↔ ∀ j ∈ js, KeptBy free ofJson j := by
  rw [← Shape.keptBy_items_iff, KeptBy, free_list]
  simp only [map_eq_ok_iff]
  constructor
  · rintro ⟨n, ⟨ns, hns, rfl⟩, hsame⟩
    exact ⟨ns, hns, Json.sameEntries_list_iff.mp hsame⟩
  · rintro ⟨ns, hns, hsame⟩
    exact ⟨_, ⟨ns, hns, rfl⟩, Json.sameEntries_list_iff.mpr hsame⟩

/-- An object is kept if the value of each of its members is. -/
theorem keptBy_free_object_iff {ms : Members Json} (hn : (ms.map Prod.fst).Nodup) :
    KeptBy free ofJson (.object ms) ↔ ∀ m ∈ ms, KeptBy free ofJson m.2 := by
  rw [← Shape.keptBy_entries_iff hn, KeptBy, free_object]
  simp only [map_eq_ok_iff]
  constructor
  · rintro ⟨n, ⟨out, hout, rfl⟩, hsame⟩
    exact ⟨out, hout, hsame⟩
  · rintro ⟨out, hout, hsame⟩
    exact ⟨_, ⟨out, hout, rfl⟩, hsame⟩

/-! ## All values -/

mutual

/-- **Data is kept exactly if its numbers are finite.** -/
theorem keptBy_free_iff : ∀ j : Json, j.Distinct → (KeptBy free ofJson j ↔ j.Finite)
  | .null, _ | .bool _, _ | .int _, _ | .text _, _ =>
    ⟨fun _ => trivial, fun _ => ⟨_, rfl, .refl _⟩⟩
  | .float x, _ => by
    have hread : free (ofJson (.float x)) = .ok (if x.isFinite then .float x else .null) := rfl
    rw [Shape.keptBy_iff_of_read hread, Json.Finite]
    split
    · next h => exact ⟨fun _ => h, fun _ => .refl _⟩
    · next h =>
      refine ⟨fun hsame => ?_, fun hx => absurd hx h⟩
      cases Json.sameEntries_null.mp hsame
  | .list js, hj => by
    rw [keptBy_free_list_iff, Json.finite_list_iff]
    exact forall₂_congr (keptBy_free_items js fun x hx => hj.of_mem_list hx)
  | .object ms, hj => by
    rw [keptBy_free_object_iff hj.nodup, Json.finite_object_iff]
    exact forall₂_congr (keptBy_free_members ms fun m hm => hj.of_mem_object hm)

theorem keptBy_free_items : ∀ js : List Json, (∀ x ∈ js, x.Distinct) →
    ∀ x ∈ js, (KeptBy free ofJson x ↔ x.Finite)
  | [], _ => fun x hx => by cases hx
  | j :: js, hjs => by
    obtain ⟨hj, hjs⟩ := List.forall_mem_cons.mp hjs
    exact List.forall_mem_cons.mpr ⟨keptBy_free_iff j hj, keptBy_free_items js hjs⟩

theorem keptBy_free_members : ∀ ms : List (String × Json), (∀ m ∈ ms, m.2.Distinct) →
    ∀ m ∈ ms, (KeptBy free ofJson m.2 ↔ m.2.Finite)
  | [], _ => fun m hm => by cases hm
  | (_, j) :: ms, hms => by
    obtain ⟨hj, hms⟩ := List.forall_mem_cons.mp hms
    exact List.forall_mem_cons.mpr ⟨keptBy_free_iff j hj, keptBy_free_members ms hms⟩

end

theorem faithful_free : Faithful ofJson .free :=
  fun j hj => (keptBy_free_iff j hj).symm

/-- **A regular shape keeps exactly its exact values**, read from YAML. -/
theorem faithful_ofJson {s : Shape} (hs : s.Regular) : Faithful ofJson s :=
  Shape.faithful carries_ofJson faithful_free s hs

end WorkloadEnv.Yaml.Value
