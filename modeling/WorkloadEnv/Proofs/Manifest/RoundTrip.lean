import WorkloadEnv.Manifest.Reader
import WorkloadEnv.Proofs.Document.RoundTrip
import WorkloadEnv.Proofs.Manifest.Pipeline
import WorkloadEnv.Proofs.Manifest.Writing
import WorkloadEnv.Proofs.Transformer.Passes
import WorkloadEnv.Proofs.Yaml.Carried

/-! # Writing a transformed manifest and reading it back

    A manifest that was transformed, written and read back is the manifest that
    was written, and transforming it again changes nothing
    (`transformed_written_read`).  Of YAML it is only assumed that reading the
    text gives the documents that were written.

    What carries the argument is that a transformed document still reads back
    from its members (`readsBack_of_transformer`): leaving the creation time out
    keeps the metadata a normal form, and an injection puts nothing in the data
    but entries of its own. -/

namespace WorkloadEnv

/-! ## A transformed document reads back -/

namespace MinVersionTransform

variable {α : Type} [Source α] {embed : Json → α} {d d' : Document} {v : String}

theorem readsBack_outcome (hc : Carries embed) (h : d.ReadsBack embed) (v : String) :
    (outcome v d).ReadsBack embed := by
  have hwf := h.wellFormed
  have hentry : (EnvVar.plain minVersionVariable v).toJson.Finite := ⟨trivial, trivial, trivial⟩
  refine ⟨wellFormed_outcome hwf v, ?_, ?_, ?_, ?_, ?_⟩
  · show ((Json.object d.data).modifyAt (PodSpec.inject [.plain minVersionVariable v])
      Workload.podSpecPath).Finite
    refine h.finite.modifyAt_of_at? (hwf.ordered.sortedAlong _) fun x hx => ?_
    exact PodSpec.finite_inject (hwf.ordered.at? hx) (h.finite.at? hx) (name_plain_ne_empty v)
      hentry
  · exact (Members.get?_modify_ne (by decide) d.data).trans h.get?_apiVersion
  · exact (Members.get?_modify_ne (by decide) d.data).trans h.get?_kind
  · exact h.sorted_metadata.sublist List.filter_sublist
  · -- the creation time is optional, so the metadata is a normal form without it
    exact Document.objectMeta_hasMember_creationTimestamp.read_erase hc rfl h.sorted_metadata
      h.metadata

/-- **What the transform leaves behind reads back.** -/
theorem readsBack_of_transformer (hc : Carries embed) (h : d.ReadsBack embed)
    (ht : (ofVersion v).transformer d = (d', none)) : d'.ReadsBack embed := by
  rcases apply_cases h.wellFormed (transformer_eq_iff.mp ht) with ⟨-, rfl⟩ | ⟨-, -, rfl⟩
  · exact h
  · exact readsBack_outcome hc h v

/-- What the transform leaves behind it leaves as it is the next time. -/
theorem transformer_of_transformer (hd : d.WellFormed)
    (ht : (ofVersion v).transformer d = (d', none)) :
    (ofVersion v).transformer d' = (d', none) := by
  rcases apply_cases hd (transformer_eq_iff.mp ht) with ⟨-, rfl⟩ | ⟨hv, ⟨kind, w, hkind, hw⟩, rfl⟩
  · exact ht
  · obtain ⟨w', hw', -⟩ := decode_outcome hd hw v
    rw [transformer_of_decode (wellFormed_outcome hd v) hkind hw' hv, outcome_outcome hd]

end MinVersionTransform

/-! ## Manifests -/

namespace Manifest

open MinVersionTransform (ofVersion)

variable {m : Manifest} {ds : List Document} {v : String}

/-- Documents that read back are the resources they were. -/
theorem ofOutcomes_of_readsBack (h : ∀ d ∈ ds, d.ReadsBack Yaml.Value.ofJson) :
    ofOutcomes (ds.map fun d => .ok (Yaml.Value.ofJson (.object d.entries))) = .ok ds := by
  induction ds with
  | nil => rfl
  | cons d ds ih =>
    have hd := h d List.mem_cons_self
    have hread := hd.read Yaml.Value.carries_ofJson
    -- a mapping is not null, so no document is left out
    have hresource : resourceOf (.ok (Yaml.Value.ofJson (.object d.entries))) = .ok (some d) := by
      have hnull : (Yaml.Value.ofJson (.object d.entries)).isNull = false :=
        Yaml.Value.absent_ofJson (.object d.entries)
      simp only [resourceOf, hnull, hread]
      rfl
    rw [List.map_cons, ofOutcomes, hresource, ih fun d hd => h d (List.mem_cons_of_mem _ hd)]
    rfl

/-- The text that is written for a manifest is read as its documents. -/
def ReadsAsWritten (m : Manifest) : Prop :=
  Yaml.read m.toYaml = m.resources.map fun d => .ok (Yaml.Value.ofJson (.object d.entries))

/-- **Write, read back and transform again is a fixed point.**  For documents from JSON
    whose data would not be taken for their type, and a version with which none of
    them fails: what is written is read back as the very manifest that was
    written, with the same resources in the same order, and transforming that
    with the same version fails nowhere and changes nothing, so it is written
    the same again. -/
theorem transformed_written_read {before : Manifest}
    (hbefore : ∀ d ∈ before.resources, d.FromFiniteJson ∧
      Members.get? "apiVersion" d.data = none ∧ Members.get? "kind" d.data = none)
    (ht : before.transform (ofVersion v).transformer = (m, []))
    (hyaml : m.ReadsAsWritten) :
    m.write (.empty none) = (⟨m.toYaml.toUTF8, none⟩, none) ∧
      ofYaml m.toYaml = .ok m ∧
      m.transform (ofVersion v).transformer = (m, []) := by
  have hall := transform_eq_nil_iff.mp ht
  -- each resource comes from one that reads back
  have hresources : ∀ d' ∈ m.resources, d'.ReadsBack Yaml.Value.ofJson ∧
      (ofVersion v).transformer d' = (d', none) := by
    intro d' hd'
    obtain ⟨d, hd, htd⟩ := exists_of_mem_right hall hd'
    obtain ⟨hjson, hversion, hkind⟩ := hbefore d hd
    have hback := hjson.readsBack Yaml.Value.carries_ofJson hversion hkind
    exact ⟨MinVersionTransform.readsBack_of_transformer Yaml.Value.carries_ofJson hback htd,
      MinVersionTransform.transformer_of_transformer hback.wellFormed htd⟩
  refine ⟨write_empty m, ?_, ?_⟩
  · rw [ofYaml, hyaml, ofOutcomes_of_readsBack fun d hd => (hresources d hd).1]
    rfl
  · rw [transform_eq_nil_iff, List.forall₂_same]
    exact fun d hd => (hresources d hd).2

/-! ## A job and a resource of which only the name is known -/

namespace Sample

/-- The manifest before the transform. -/
def before : Manifest where
  resources := [
    { types := some ⟨"batch/v1", "Job"⟩
      metadata := [("creationTimestamp", .text "2024-01-31T10:20:30Z"), ("name", .text "load")]
      data := [("spec", .object [("template", .object [("spec", .object [("containers",
        .list [.object [("name", .text "main")]])])])])] },
    { types := none, metadata := [("name", .text "rest")], data := [] }]

/-- The manifest after it: the job has the variable, and no creation time. -/
def after : Manifest where
  resources := [
    { types := some ⟨"batch/v1", "Job"⟩
      metadata := [("name", .text "load")]
      data := [("spec", .object [("template", .object [("spec", .object [("containers",
        .list [.object [
          ("env", .list [.object [("name", .text "KUBERNETES_MIN_VERSION"),
            ("value", .text "v1.25.0")]]),
          ("name", .text "main")]])])])])] },
    { types := none, metadata := [("name", .text "rest")], data := [] }]

/-- What is written for it. -/
def text : String :=
  "apiVersion: batch/v1\n" ++
  "kind: Job\n" ++
  "metadata:\n" ++
  "  name: load\n" ++
  "spec:\n" ++
  "  template:\n" ++
  "    spec:\n" ++
  "      containers:\n" ++
  "      - env:\n" ++
  "        - name: KUBERNETES_MIN_VERSION\n" ++
  "          value: v1.25.0\n" ++
  "        name: main\n" ++
  "---\n" ++
  "metadata:\n" ++
  "  name: rest\n"

open Yaml (Event EventList)

def plain (s : String) : Event := .scalar ⟨none, none⟩ true s

def mapping (es : List Event) : List Event := .mapStart ⟨none, none⟩ :: es ++ [.mapEnd]

def sequence (es : List Event) : List Event := .listStart ⟨none, none⟩ :: es ++ [.listEnd]

/-- The events of the first document of the text. -/
def jobEvents : List Event :=
  let entry := mapping
    [plain "name", plain "KUBERNETES_MIN_VERSION", plain "value", plain "v1.25.0"]
  let container := mapping (plain "env" :: sequence entry ++ [plain "name", plain "main"])
  let podSpec := mapping (plain "containers" :: sequence container)
  mapping ([plain "apiVersion", plain "batch/v1", plain "kind", plain "Job"] ++
    plain "metadata" :: mapping [plain "name", plain "load"] ++
    plain "spec" :: mapping (plain "template" :: mapping (plain "spec" :: podSpec)))

/-- The events of the second one. -/
def restEvents : List Event :=
  mapping (plain "metadata" :: mapping [plain "name", plain "rest"])

theorem readsAsWritten_after : after.ReadsAsWritten := by
  have htext : after.toYaml = text := by decide +kernel
  have hevents : EventList.ofTokens (Yaml.tokens text) = [⟨jobEvents, true⟩, ⟨restEvents, true⟩] := by
    decide +kernel
  rw [ReadsAsWritten, htext, Yaml.read, hevents]
  rfl

end Sample

/-- The variable of the job is written, read back and left as it is. -/
theorem transformed_written_read_job :
    Sample.before.transform (ofVersion "v1.25.0").transformer = (Sample.after, []) ∧
      ofYaml Sample.after.toYaml = .ok Sample.after ∧
      Sample.after.transform (ofVersion "v1.25.0").transformer = (Sample.after, []) := by
  have hbefore : ∀ d ∈ Sample.before.resources, d.FromFiniteJson ∧
      Members.get? "apiVersion" d.data = none ∧ Members.get? "kind" d.data = none := by
    intro d hd
    -- each of the two is decoded from its own members
    have hread : Document.read (Json.object d.entries) = .ok d ∧
        Members.get? "apiVersion" d.data = none ∧ Members.get? "kind" d.data = none := by
      rcases List.mem_pair.mp hd with rfl | rfl <;> exact ⟨rfl, rfl, rfl⟩
    have hordered : ∀ m ∈ (Json.object d.entries).members, m.2.Ordered := by
      rcases List.mem_pair.mp hd with rfl | rfl <;> decide
    have hfinite : ∀ m ∈ (Json.object d.entries).members, m.2.Finite := by
      rcases List.mem_pair.mp hd with rfl | rfl <;>
        simp [Document.entries, Json.members, Json.Finite, Json.FiniteMembers, Json.FiniteItems]
    exact ⟨⟨_, fun m hm => ⟨hordered m hm, hfinite m hm⟩, hread.1⟩, hread.2⟩
  have ht : Sample.before.transform (ofVersion "v1.25.0").transformer = (Sample.after, []) := rfl
  obtain ⟨-, hread, hagain⟩ := transformed_written_read hbefore ht Sample.readsAsWritten_after
  exact ⟨ht, hread, hagain⟩

end Manifest

end WorkloadEnv
