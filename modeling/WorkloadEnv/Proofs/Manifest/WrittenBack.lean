import WorkloadEnv.Proofs.Document.Lossless
import WorkloadEnv.Proofs.Manifest.Loading
import WorkloadEnv.Proofs.Manifest.RoundTrip
import WorkloadEnv.Proofs.Transformer.Outcome
import WorkloadEnv.Proofs.Yaml.FreeData

/-! # Resources that are left alone

    Without a version to set, or where the kind is no workload, the transform
    leaves a resource as it was loaded, and nothing is reported on it.  What is
    written is therefore decided by loading alone: it has the entries of the
    document it was loaded from, with metadata added where there was none,
    exactly if that document is lossless (`written_back_iff`).

    Not every document is.  Metadata with a member that is not known, and a kind
    without a version, load without an error and are written without what was
    not kept (`unchanged_not_written_back`).

    All this is said of documents without tags, as a value with a tag is that of
    no JSON.  A tag on a document is looked through (`resourceOf_tagged`), and so
    is one on a name in it or in its metadata: such a document is loaded as the
    one without the tags, and written without them.  A tag in the value of any
    other member is an error of loading. -/

namespace WorkloadEnv.Manifest

open MinVersionTransform (ofVersion)
open Document (withMetadata Lossless)
open Json (SameEntries)

variable {m : Manifest} {d : Document} {ds : List Document} {vs : List Yaml.Value} {j : Json}
  {i : Nat} {v s : String} {t : Transformer}

/-! ## Passing a resource by -/

/-- A resource that a transformer returns as it is keeps its place, and is not reported. -/
theorem transform_getElem?_of_fixed (hd : m.resources[i]? = some d) (ht : t d = (d, none)) :
    (m.transform t).1.resources[i]? = some d ∧ ∀ e ∈ (m.transform t).2, e.index ≠ i := by
  rw [transform_eq]
  constructor
  · rw [List.getElem?_map, hd, Option.map_some, Transformer.settle, ht]
    rfl
  · rintro e he rfl
    obtain ⟨k, d', hd', hfailure⟩ := mem_failuresFrom_iff.mp he
    have hindex := index_of_failure? hfailure
    rw [Nat.zero_add] at hindex
    rw [hindex, hd'] at hd
    obtain rfl := Option.some.inj hd
    rw [failure?, ht] at hfailure
    cases hfailure

/-! ## Loading -/

/-- Each value that is not null is there as the resource it decodes as. -/
theorem exists_resource_of_ofOutcomes (h : ofOutcomes (vs.map .ok) = .ok ds)
    {u : Yaml.Value} (hu : (present vs)[i]? = some u) :
    ∃ d, ds[i]? = some d ∧ u.isNull = false ∧ Document.read u = .ok d := by
  obtain ⟨vs', hvs, hall⟩ := ofOutcomes_eq_ok_iff.mp h
  obtain rfl : vs = vs' := List.map_injective_iff.mpr (fun _ _ => Except.ok.inj) hvs
  have hnull : u.isNull = false := by
    have hmem := (List.mem_filter.mp (List.mem_of_getElem? hu)).2
    simpa using hmem
  have hrel := Json.forall₂_iff_rel_getElem?.mp hall i
  rw [hu] at hrel
  obtain ⟨d, hd, hread⟩ := rel_some_left_iff.mp hrel
  exact ⟨d, hd, hnull, hread⟩

/-- What is a document and not null is an object. -/
theorem object_of_read (hnull : (Yaml.Value.ofJson j).isNull = false)
    (h : Document.read (Yaml.Value.ofJson j) = .ok d) : ∃ ms, j = .object ms := by
  obtain ⟨es, hes, -⟩ := bind_eq_ok_iff.mp h
  cases j with
  | object ms => exact ⟨ms, rfl⟩
  | null => cases hnull
  | _ => cases hes

/-- A document with a tag is loaded as the one without it. -/
theorem resourceOf_tagged (tag : String) (u : Yaml.Value) :
    resourceOf (.ok (.tagged tag u)) = resourceOf (.ok u) := rfl

/-! ## Written back -/

/-- **Exactly the lossless documents are written back as they were.**  Each document of
    a stream that loads has its resource.  One that the transform has no business
    with keeps its place, is not reported, and is written with the entries of the
    document, at every path the same, if and only if the document is lossless. -/
theorem written_back_iff (hread : Yaml.read s = vs.map .ok) (hload : ofYaml s = .ok m)
    (hj : j.Distinct) (hi : (present vs)[i]? = some (Yaml.Value.ofJson j)) :
    ∃ d, m.resources[i]? = some d ∧
      (v = "" ∨ WorkloadKind.ofDocument? d = none →
        (m.transform (ofVersion v).transformer).1.resources[i]? = some d ∧
        (∀ e ∈ (m.transform (ofVersion v).transformer).2, e.index ≠ i) ∧
        (SameEntries (withMetadata j) (.object d.entries) ↔ Lossless j)) := by
  rw [ofYaml, hread] at hload
  obtain ⟨ds, hds, rfl⟩ := map_eq_ok_iff.mp hload
  obtain ⟨d, hd, hnull, hdecode⟩ := exists_resource_of_ofOutcomes hds hi
  obtain ⟨ms, rfl⟩ := object_of_read hnull hdecode
  refine ⟨d, hd, fun hidle => ?_⟩
  have hfixed : (ofVersion v).transformer d = (d, none) :=
    MinVersionTransform.transformer_eq_iff.mpr (MinVersionTransform.apply_of_idle hidle)
  have hregular : Kubernetes.objectMeta.Regular := by decide
  obtain ⟨hplace, hfailures⟩ := transform_getElem?_of_fixed (m := ⟨ds⟩) hd hfixed
  exact ⟨hplace, hfailures, Document.sameEntries_entries_iff Yaml.Value.carries_ofJson
    Yaml.Value.faithful_free (Yaml.Value.faithful_ofJson hregular) hj hdecode⟩

/-! ## Three documents, of which one is lossless -/

namespace Sample

/-- A lossless resource, one with metadata that is not known, and one with half a type. -/
def stream : List Json := [
  .object [("apiVersion", .text "v1"), ("kind", .text "Service"),
    ("metadata", .object [("name", .text "door")]),
    ("spec", .object [("type", .text "NodePort")])],
  .object [("apiVersion", .text "v1"), ("kind", .text "ConfigMap"),
    ("metadata", .object [("clusterName", .text "east"), ("name", .text "settings")])],
  .object [("kind", .text "Kustomization"), ("metadata", .object [("name", .text "web")])]]

/-- The text they are read from. -/
def streamText : String :=
  "apiVersion: v1\n" ++
  "kind: Service\n" ++
  "metadata:\n" ++
  "  name: door\n" ++
  "spec:\n" ++
  "  type: NodePort\n" ++
  "---\n" ++
  "apiVersion: v1\n" ++
  "kind: ConfigMap\n" ++
  "metadata:\n" ++
  "  clusterName: east\n" ++
  "  name: settings\n" ++
  "---\n" ++
  "kind: Kustomization\n" ++
  "metadata:\n" ++
  "  name: web\n"

/-- What is loaded: the unknown member and the kind without a version are gone. -/
def loaded : Manifest where
  resources := [
    { types := some ⟨"v1", "Service"⟩
      metadata := [("name", .text "door")]
      data := [("spec", .object [("type", .text "NodePort")])] },
    { types := some ⟨"v1", "ConfigMap"⟩, metadata := [("name", .text "settings")], data := [] },
    { types := none, metadata := [("name", .text "web")], data := [] }]

open Yaml (Event EventList)

/-- The events of a document that tells its kind in the first version. -/
def documentEvents (kind : String) (rest : List Event) : List Event :=
  mapping ([plain "apiVersion", plain "v1", plain "kind", plain kind] ++ rest)

theorem read_streamText :
    Yaml.read streamText = (stream.map Yaml.Value.ofJson).map .ok := by
  have hevents : EventList.ofTokens (Yaml.tokens streamText) = [
      ⟨documentEvents "Service" (plain "metadata" :: mapping [plain "name", plain "door"] ++
        plain "spec" :: mapping [plain "type", plain "NodePort"]), true⟩,
      ⟨documentEvents "ConfigMap" (plain "metadata" :: mapping [plain "clusterName", plain "east",
        plain "name", plain "settings"]), true⟩,
      ⟨mapping ([plain "kind", plain "Kustomization"] ++
        plain "metadata" :: mapping [plain "name", plain "web"]), true⟩] := by
    decide +kernel
  rw [Yaml.read, hevents]
  rfl

theorem ofYaml_streamText : ofYaml streamText = .ok loaded := by
  rw [ofYaml, read_streamText]
  rfl

end Sample

/-- The first of them is written back as it was. -/
theorem written_back_iff_door : ∃ j d, Sample.stream[0]? = some j ∧
    (Sample.loaded.transform (ofVersion "v1.25.0").transformer).1.resources[0]? = some d ∧
    SameEntries (withMetadata j) (.object d.entries) := by
  have hordered : (Sample.stream[0]).Ordered := by decide
  have hfinite : (Sample.stream[0]).Finite := ⟨trivial, trivial, ⟨trivial, trivial⟩,
    ⟨trivial, trivial⟩, trivial⟩
  have hlossless : Lossless Sample.stream[0] := by
    refine ⟨.inl ⟨_, _, rfl, rfl⟩, fun m hm => ?_, fun _ _ _ hx => hfinite.get? hx⟩
    obtain rfl := Option.some.inj hm
    refine ⟨_, rfl, by simp, by decide, ?_⟩
    simp [Shape.ExactMembers, Kubernetes.may, Members.get?_cons, Shape.Exact, Json.isNull]
  obtain ⟨d, hd, hback⟩ := written_back_iff (v := "v1.25.0") (i := 0) Sample.read_streamText
    Sample.ofYaml_streamText hordered.distinct rfl
  obtain rfl := Option.some.inj hd
  obtain ⟨hplace, -, hsame⟩ := hback (.inr rfl)
  exact ⟨_, _, rfl, hplace, hsame.mpr hlossless⟩

/-- **The others are left alone and yet not written back**: an unknown member of the
    metadata is lost, and so is a kind without a version. -/
theorem unchanged_not_written_back :
    ofYaml Sample.streamText = .ok Sample.loaded ∧
    Sample.loaded.transform (ofVersion "v1.25.0").transformer = (Sample.loaded, []) ∧
    (∃ j d, Sample.stream[1]? = some j ∧ Sample.loaded.resources[1]? = some d ∧
      WorkloadKind.ofDocument? d = none ∧ ¬SameEntries (withMetadata j) (.object d.entries)) ∧
    (∃ j d, Sample.stream[2]? = some j ∧ Sample.loaded.resources[2]? = some d ∧
      WorkloadKind.ofDocument? d = none ∧ ¬SameEntries (withMetadata j) (.object d.entries)) := by
  refine ⟨Sample.ofYaml_streamText, rfl, ⟨_, _, rfl, rfl, rfl, fun hsame => ?_⟩,
    ⟨_, _, rfl, rfl, rfl, fun hsame => ?_⟩⟩
  · have hpath := hsame [.member "metadata", .member "clusterName"]
    exact absurd hpath (by decide)
  · have hpath := hsame [.member "kind"]
    exact absurd hpath (by decide)

end WorkloadEnv.Manifest
