import WorkloadEnv.Transformer
import WorkloadEnv.Proofs.Workload.Injection

/-! # What applying the transform does

    A transform that sets a version changes the raw pod spec and leaves the
    creation time out (`outcome`); in all other cases it changes nothing
    (`apply_cases`).  The outcome decodes again, with the pod spec that was
    merged (`decode_outcome`), and is its own outcome, so transforming twice is
    transforming once (`transformer_idempotent`). -/

namespace WorkloadEnv

open Workload

variable {d d' : Document} {kind : WorkloadKind} {w : Workload}

/-! ## Leaving metadata out -/

namespace Workload

theorem shape_hasMember_metadata (kind : WorkloadKind) :
    kind.shape.HasMember "metadata" (.required, Kubernetes.objectMeta) := by
  cases kind <;> exact ⟨_, _, _, rfl, by decide, rfl⟩

/-- Without a member of its metadata a document decodes as before, up to the metadata. -/
theorem decode_eraseMetadata (hd : d.WellFormed) (hw : decode kind d = .ok w) (member : String) :
    ∃ w', decode kind (d.eraseMetadata member) = .ok w' ∧ w'.spec = w.spec := by
  obtain ⟨n, hn, rfl⟩ := decode_eq_ok_iff.mp hw
  have hp := shape_hasMember_metadata kind
  have hget := hd.get?_metadata_toJson
  -- the metadata reads, and so does what is left of it
  obtain ⟨m, hm⟩ := hp.read_get? d.sorted_toJson hn hget rfl
  obtain ⟨m', hm'⟩ : ∃ m', Kubernetes.objectMeta.read
      (Json.object (Members.erase member d.metadata)) = .ok m' :=
    Shape.read_record_of_subset hm fun e he => List.mem_of_mem_filter he
  have htoJson : (d.eraseMetadata member).toJson = .object (Members.put "metadata"
      (.object (Members.erase member d.metadata)) (Members.putAll d.header d.data)) := by
    rw [hd.toJson_eraseMetadata, Document.toJson_eq, Json.modifyAt_object,
      d.sorted_toJson.modify_eq_put hget]
    rfl
  have hread := hp.read_put d.sorted_toJson hn rfl hm'
  refine ⟨_, decode_eq_ok_iff.mpr ⟨_, htoJson ▸ hread, rfl⟩, ?_⟩
  show (Members.get? "spec" (Members.put "metadata" m' n.members)).map WorkloadSpec.ofNormal = _
  rw [Members.get?_put_ne (by decide)]
  rfl

end Workload

/-! ## The outcome -/

namespace MinVersionTransform

/-- What a version makes of a workload. -/
def outcome (v : String) (d : Document) : Document :=
  (injected [.plain minVersionVariable v] d).eraseMetadata "creationTimestamp"

theorem wellFormed_outcome (hd : d.WellFormed) (v : String) : (outcome v d).WellFormed :=
  (wellFormed_injected hd _).eraseMetadata _

/-- The encoded outcome: two changes below different members. -/
theorem toJson_outcome (hd : d.WellFormed) (v : String) :
    (outcome v d).toJson =
      (d.toJson.modifyAt (PodSpec.inject [.plain minVersionVariable v]) podSpecPath).modifyAt
        (Json.eraseMember "creationTimestamp") ["metadata"] := by
  rw [outcome, (wellFormed_injected hd _).toJson_eraseMetadata, toJson_injected]

/-- The pod spec of the outcome depends on the pod spec alone. -/
theorem at?_outcome (hd : d.WellFormed) (v : String) :
    (outcome v d).toJson.at? podSpecPath =
      (d.toJson.at? podSpecPath).map (PodSpec.inject [.plain minVersionVariable v]) := by
  rw [toJson_outcome hd, podSpecPath, Json.at?_modifyAt_ne (by decide), Json.at?_modifyAt_self]

/-- The outcome decodes, with the pod spec that was merged. -/
theorem decode_outcome (hd : d.WellFormed) (hw : decode kind d = .ok w) (v : String) :
    ∃ w', decode kind (outcome v d) = .ok w' ∧
      w'.spec = (w.modifyPodSpec (PodSpec.mergeEnv [.plain minVersionVariable v])).spec :=
  decode_eraseMetadata (wellFormed_injected hd _) (decode_injected hd hw _) _

theorem outcome_outcome (hd : d.WellFormed) (v : String) :
    outcome v (outcome v d) = outcome v d := by
  have hpass : injected [.plain minVersionVariable v] (outcome v d) =
      (injected [.plain minVersionVariable v] (injected [.plain minVersionVariable v] d)).eraseMetadata
        "creationTimestamp" := Document.modifyData_eraseMetadata _ _
  rw [outcome, hpass, injected_injected hd, Document.eraseMetadata_eraseMetadata]
  rfl

/-! ## Applying -/

/-- Without a version, or without a workload, nothing changes. -/
theorem apply_of_idle {v : String} (h : v = "" ∨ WorkloadKind.ofDocument? d = none) :
    (ofVersion v).apply d = .ok d := by
  rcases h with rfl | hkind
  · rfl
  · unfold apply
    rw [hkind]
    split
    · next h => cases h
    · rfl

/-- With both, everything depends on whether the document decodes. -/
theorem apply_of_kind (hd : d.WellFormed) {v : String} (hv : v ≠ "")
    (hkind : WorkloadKind.ofDocument? d = some kind) :
    (ofVersion v).apply d = (decode kind d).map fun _ => outcome v d := by
  rw [ofVersion, if_neg hv]
  simp only [apply, hkind, injectEnv_eq hd]
  cases decode kind d <;> rfl

/-- **All that applying can do** when it succeeds. -/
theorem apply_cases (hd : d.WellFormed) {v : String} (h : (ofVersion v).apply d = .ok d') :
    (v = "" ∨ WorkloadKind.ofDocument? d = none) ∧ d' = d ∨
    v ≠ "" ∧ (∃ kind w, WorkloadKind.ofDocument? d = some kind ∧ decode kind d = .ok w) ∧
      d' = outcome v d := by
  by_cases hv : v = ""
  · rw [apply_of_idle (.inl hv)] at h
    exact .inl ⟨.inl hv, (Except.ok.inj h).symm⟩
  · cases hkind : WorkloadKind.ofDocument? d with
    | none =>
      rw [apply_of_idle (.inr hkind)] at h
      exact .inl ⟨.inr rfl, (Except.ok.inj h).symm⟩
    | some kind =>
      rw [apply_of_kind hd hv hkind] at h
      obtain ⟨w, hw, h⟩ := map_eq_ok_iff.mp h
      exact .inr ⟨hv, ⟨kind, w, rfl, hw⟩, h.symm⟩

theorem transformer_eq_iff {t : MinVersionTransform} :
    t.transformer d = (d', none) ↔ t.apply d = .ok d' := by
  unfold transformer
  cases t.apply d <;> simp

/-! ## Doing it again -/

/-- **Injecting and transforming are idempotent on the raw document.**  What either
    one left behind it accepts again, and leaves as it is in its type, its
    metadata and the whole of its data. -/
theorem transformer_idempotent (hd : d.FromJson) :
    (∀ kind o d₁, injectEnv kind o d = .ok d₁ → injectEnv kind o d₁ = .ok d₁) ∧
    (∀ v d₁, (ofVersion v).transformer d = (d₁, none) →
      (ofVersion v).transformer d₁ = (d₁, none)) := by
  have hwf := hd.wellFormed
  constructor
  · intro kind o d₁ h
    rw [injectEnv_eq hwf] at h
    obtain ⟨w, hw, rfl⟩ := map_eq_ok_iff.mp h
    rw [injectEnv_eq (wellFormed_injected hwf o), decode_injected hwf hw o, Except.map,
      injected_injected hwf o]
  · intro v d₁ h
    rw [transformer_eq_iff] at h ⊢
    rcases apply_cases hwf h with ⟨-, rfl⟩ | ⟨hv, ⟨kind, w, hkind, hw⟩, rfl⟩
    · exact h
    · have hkind' : WorkloadKind.ofDocument? (outcome v d) = some kind := hkind
      obtain ⟨w', hw', -⟩ := decode_outcome hwf hw v
      rw [apply_of_kind (wellFormed_outcome hwf v) hv hkind', hw', Except.map,
        outcome_outcome hwf v]

/-- A job whose metadata, containers and init containers all change the first time. -/
theorem transformer_idempotent_job :
    (∃ d₁, (injectEnv .job [.plain "A" "1", .plain "A" "2"] Sample.job = .ok d₁) ∧
      injectEnv .job [.plain "A" "1", .plain "A" "2"] d₁ = .ok d₁) ∧
    (∃ d₁, (ofVersion "v1.25.0").transformer Sample.job = (d₁, none) ∧
      (ofVersion "v1.25.0").transformer d₁ = (d₁, none)) := by
  have h := transformer_idempotent Sample.job_fromJson
  exact ⟨⟨_, rfl, h.1 .job _ _ rfl⟩, ⟨_, rfl, h.2 _ _ rfl⟩⟩

end MinVersionTransform

end WorkloadEnv
