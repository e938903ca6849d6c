import WorkloadEnv.Proofs.Transformer.Outcome
import WorkloadEnv.Proofs.Workload.Reinjection

/-! # Passing over a document again and again

    The transform is applied to one document with one version after the other.
    A document that does not decode as its kind stays as it is, and every pass
    that has something to do reports the same error.  In a document that decodes
    the last version decides: what is left is the outcome of that version alone,
    up to the first entry of the variable in each environment, where an earlier
    version may have taken the place of an entry that would have been kept.

    One pass keeps all that later ones depend on: the document still decodes, and
    the outcome of a later version hides it (`decode_outcome_outcome`,
    `bareVariable_outcome_outcome`).  A run is then an induction over the
    versions (`last_version_decides`). -/

namespace WorkloadEnv.MinVersionTransform

open Workload

variable {d : Document} {kind : WorkloadKind} {w : Workload} {u v : String} {vs : List String}

/-! ## Two passes -/

/-- The name of the variable is not empty, whatever its value. -/
theorem name_plain_ne_empty (v : String) : (EnvVar.plain minVersionVariable v).name ≠ "" :=
  show minVersionVariable ≠ "" by decide

/-- An outcome is an injection into the document without its creation time. -/
theorem outcome_eq_injected (v : String) (d : Document) :
    outcome v d =
      injected [.plain minVersionVariable v] (d.eraseMetadata "creationTimestamp") := rfl

/-- The second outcome injects over the first one. -/
theorem outcome_outcome_eq (v u : String) (d : Document) :
    outcome v (outcome u d) = injected [.plain minVersionVariable v]
      (injected [.plain minVersionVariable u] (d.eraseMetadata "creationTimestamp")) := by
  have herased : (outcome u d).eraseMetadata "creationTimestamp" = outcome u d :=
    Document.eraseMetadata_eraseMetadata _
  rw [outcome_eq_injected v, herased, outcome_eq_injected u]

/-- **The typed outcome of a version hides an earlier version.** -/
theorem decode_outcome_outcome (hd : d.WellFormed) (hw : decode kind d = .ok w) (v u : String) :
    decode kind (outcome v (outcome u d)) = decode kind (outcome v d) := by
  obtain ⟨w₀, hw₀, -⟩ := decode_eraseMetadata hd hw "creationTimestamp"
  rw [outcome_outcome_eq, outcome_eq_injected]
  exact decode_injected_injected (hd.eraseMetadata _) hw₀ rfl

/-- **So does the raw outcome, up to the entries of the variable.** -/
theorem bareVariable_outcome_outcome (hd : d.WellFormed) (v u : String) :
    bareVariable minVersionVariable (outcome v (outcome u d)).toJson =
      bareVariable minVersionVariable (outcome v d).toJson := by
  have hname : (EnvVar.plain minVersionVariable u).name =
      (EnvVar.plain minVersionVariable v).name := rfl
  rw [outcome_outcome_eq, outcome_eq_injected]
  exact bareVariable_injected_injected (hd.eraseMetadata _) hname (name_plain_ne_empty v)

/-! ## Runs -/

/-- What each pass of a run leaves behind, with the error it reports. -/
def passes : List String → Document → List (Document × Option TransformError)
  | [], _ => []
  | v :: vs, d =>
    let r := (ofVersion v).transformer d
    r :: passes vs r.1

/-- The document at the end of a run. -/
def afterAll (vs : List String) (d : Document) : Document :=
  ((passes vs d).getLast?.map Prod.fst).getD d

/-- The last version of a run that is one. -/
def lastVersion? (vs : List String) : Option String := (vs.filter (· ≠ "")).getLast?

theorem afterAll_cons (v : String) (vs : List String) (d : Document) :
    afterAll (v :: vs) d = afterAll vs ((ofVersion v).transformer d).1 := by
  unfold afterAll
  rw [passes, List.getLast?_cons]
  cases (passes vs ((ofVersion v).transformer d).1).getLast? <;> rfl

theorem lastVersion?_cons (hv : v ≠ "") (vs : List String) :
    lastVersion? (v :: vs) = some ((lastVersion? vs).getD v) := by
  unfold lastVersion?
  have hfilter : (v :: vs).filter (· ≠ "") = v :: vs.filter (· ≠ "") := by simp [hv]
  rw [hfilter, List.getLast?_cons]

theorem lastVersion?_eq_none_iff : lastVersion? vs = none ↔ ∀ v ∈ vs, v = "" := by
  simp [lastVersion?]

/-! ## One pass -/

theorem transformer_empty (d : Document) : (ofVersion "").transformer d = (d, none) := rfl

theorem transformer_of_decode_error {e : TransformError} (hd : d.WellFormed)
    (hkind : WorkloadKind.ofDocument? d = some kind) (he : decode kind d = .error e)
    (v : String) :
    (ofVersion v).transformer d = (d, if v = "" then none else some e) := by
  by_cases hv : v = ""
  · subst hv
    exact transformer_empty d
  · have happly : (ofVersion v).apply d = .error e := by
      rw [apply_of_kind hd hv hkind, he]
      rfl
    rw [transformer, happly, if_neg hv]

theorem transformer_of_decode (hd : d.WellFormed)
    (hkind : WorkloadKind.ofDocument? d = some kind) (hw : decode kind d = .ok w)
    (hv : v ≠ "") : (ofVersion v).transformer d = (outcome v d, none) := by
  rw [transformer_eq_iff, apply_of_kind hd hv hkind, hw]
  rfl

/-! ## All passes -/

/-- A document that does not decode goes through a run unchanged. -/
theorem passes_of_decode_error {e : TransformError} (hd : d.WellFormed)
    (hkind : WorkloadKind.ofDocument? d = some kind) (he : decode kind d = .error e)
    (vs : List String) : passes vs d = vs.map fun v => (d, if v = "" then none else some e) := by
  induction vs with
  | nil => rfl
  | cons v vs ih =>
    have hstep := transformer_of_decode_error hd hkind he v
    simp only [passes, hstep, ih, List.map_cons]

/-- A document that decodes goes through a run without an error. -/
theorem passes_of_decode (hd : d.WellFormed) (hkind : WorkloadKind.ofDocument? d = some kind)
    (hw : decode kind d = .ok w) (vs : List String) : ∀ r ∈ passes vs d, r.2 = none := by
  induction vs generalizing d w with
  | nil =>
    intro r hr
    cases hr
  | cons v vs ih =>
    intro r hr
    by_cases hv : v = ""
    · subst hv
      rcases List.mem_cons.mp hr with rfl | hr
      · rfl
      · exact ih hd hkind hw r hr
    · have hstep := transformer_of_decode hd hkind hw hv
      -- the outcome is a document of the kind again, and decodes
      have hkind' : WorkloadKind.ofDocument? (outcome v d) = some kind := hkind
      obtain ⟨w', hw', -⟩ := decode_outcome hd hw v
      simp only [passes, hstep, List.mem_cons] at hr
      rcases hr with rfl | hr
      · rfl
      · exact ih (wellFormed_outcome hd v) hkind' hw' r hr

/-- Without a version nothing happens. -/
theorem passes_of_lastVersion?_eq_none (h : lastVersion? vs = none) (d : Document) :
    passes vs d = vs.map fun _ => (d, none) := by
  rw [lastVersion?_eq_none_iff] at h
  induction vs with
  | nil => rfl
  | cons v vs ih =>
    obtain rfl : v = "" := h v List.mem_cons_self
    have hrest := ih fun v hv => h v (List.mem_cons_of_mem _ hv)
    simp only [passes, transformer_empty, hrest, List.map_cons]

theorem afterAll_of_lastVersion?_eq_none (h : lastVersion? vs = none) (d : Document) :
    afterAll vs d = d := by
  rw [afterAll, passes_of_lastVersion?_eq_none h, List.getLast?_map]
  cases vs.getLast? <;> rfl

/-- **The end of a run is the outcome of its last version**, for the typed reading and
    up to the entries of the variable. -/
theorem afterAll_of_decode (hd : d.WellFormed) (hkind : WorkloadKind.ofDocument? d = some kind)
    (hw : decode kind d = .ok w) (hv : lastVersion? vs = some v) :
    decode kind (afterAll vs d) = decode kind (outcome v d) ∧
      bareVariable minVersionVariable (afterAll vs d).toJson =
        bareVariable minVersionVariable (outcome v d).toJson := by
  induction vs generalizing d w with
  | nil => cases hv
  | cons u vs ih =>
    rw [afterAll_cons]
    by_cases hu : u = ""
    · subst hu
      exact ih hd hkind hw hv
    · have hstep := transformer_of_decode hd hkind hw hu
      have hwf := wellFormed_outcome hd u
      have hkind' : WorkloadKind.ofDocument? (outcome u d) = some kind := hkind
      obtain ⟨w', hw', -⟩ := decode_outcome hd hw u
      rw [lastVersion?_cons hu] at hv
      rw [hstep]
      cases hlast : lastVersion? vs with
      | none =>
        -- this was the last version, and the document stays what it became
        rw [hlast] at hv
        cases hv
        rw [afterAll_of_lastVersion?_eq_none hlast]
        exact ⟨rfl, rfl⟩
      | some v' =>
        -- a later version decides, and its outcome hides this one
        rw [hlast] at hv
        cases hv
        obtain ⟨hdecode, hbare⟩ := ih hwf hkind' hw' hlast
        constructor
        · rw [hdecode]
          exact decode_outcome_outcome hd hw _ _
        · rw [hbare]
          exact bareVariable_outcome_outcome hd _ _

/-- **The last version decides.**  Either the document of a workload does not decode:
    then it stays as it is, and each pass with a version reports the one error.
    Or it decodes: then no pass fails.  Without any version the document stays as
    it is; else it reads as after a single pass with the last version, and is
    encoded as after that pass up to the first entry of the variable in each
    environment. -/
theorem last_version_decides (hd : d.FromJson) (hkind : WorkloadKind.ofDocument? d = some kind)
    (vs : List String) :
    (∀ e, decode kind d = .error e →
      (∃ cause, e = .decode kind d.name cause) ∧
      passes vs d = vs.map (fun v => (d, if v = "" then none else some e)) ∧
      afterAll vs d = d) ∧
    (∀ w, decode kind d = .ok w →
      (∀ r ∈ passes vs d, r.2 = none) ∧
      ((∀ v ∈ vs, v = "") → afterAll vs d = d ∧ ∀ r ∈ passes vs d, r.1 = d) ∧
      ∀ v, lastVersion? vs = some v → ∃ once w',
        (ofVersion v).transformer d = (once, none) ∧
        decode kind once = .ok w' ∧ decode kind (afterAll vs d) = .ok w' ∧
        bareVariable minVersionVariable (afterAll vs d).toJson =
          bareVariable minVersionVariable once.toJson) := by
  have hwf := hd.wellFormed
  constructor
  · intro e he
    have hpasses := passes_of_decode_error hwf hkind he vs
    refine ⟨decode_eq_error he, hpasses, ?_⟩
    rw [afterAll, hpasses, List.getLast?_map]
    cases vs.getLast? <;> rfl
  · intro w hw
    refine ⟨passes_of_decode hwf hkind hw vs, ?_, ?_⟩
    · intro hempty
      have hnone := lastVersion?_eq_none_iff.mpr hempty
      refine ⟨afterAll_of_lastVersion?_eq_none hnone d, fun r hr => ?_⟩
      rw [passes_of_lastVersion?_eq_none hnone] at hr
      obtain ⟨-, -, rfl⟩ := List.mem_map.mp hr
      rfl
    · intro v hv
      have hne : v ≠ "" := by
        have hmem := List.mem_of_getLast? hv
        simpa using (List.mem_filter.mp hmem).2
      obtain ⟨w', hw', -⟩ := decode_outcome hwf hw v
      obtain ⟨hdecode, hbare⟩ := afterAll_of_decode hwf hkind hw hv
      exact ⟨_, w', transformer_of_decode hwf hkind hw hne, hw', hdecode.trans hw', hbare⟩

/-- Three passes over a job, the one in the middle without a version; and a job whose
    pod spec is a text. -/
theorem last_version_decides_job :
    (∃ once w', (ofVersion "v1.25.0").transformer Sample.job = (once, none) ∧
      decode .job once = .ok w' ∧
      decode .job (afterAll ["v1.20.0", "", "v1.25.0"] Sample.job) = .ok w' ∧
      bareVariable minVersionVariable
          (afterAll ["v1.20.0", "", "v1.25.0"] Sample.job).toJson =
        bareVariable minVersionVariable once.toJson) ∧
    (afterAll ["v1.20.0", ""] { Sample.job with data := [("spec", .text "none")] } =
      { Sample.job with data := [("spec", .text "none")] }) := by
  have hbroken : Document.FromJson { Sample.job with data := [("spec", .text "none")] } :=
    ⟨Document.toJson { Sample.job with data := [("spec", .text "none")] }, by decide, rfl⟩
  have hkind : WorkloadKind.ofDocument?
      { Sample.job with data := [("spec", .text "none")] } = some .job := rfl
  constructor
  · exact ((last_version_decides Sample.job_fromJson rfl _).2 _ rfl).2.2 _ (by decide)
  · exact ((last_version_decides hbroken hkind _).1 _ rfl).2.2

end WorkloadEnv.MinVersionTransform
