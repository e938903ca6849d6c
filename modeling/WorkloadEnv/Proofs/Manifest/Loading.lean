import WorkloadEnv.Manifest.Reader
import WorkloadEnv.Proofs.Decode.Record
import WorkloadEnv.Proofs.Manifest.Pipeline

/-! # Loading a stream

    Whatever the YAML reader gives for the documents of a text, loading them goes
    from the first to the last: a null document adds nothing, any other adds
    the resource it decodes as, and the first one that fails, to be read or to
    be decoded, fails the whole (`loading_ordered`).

    Two relations say what one document does, `Adds` and `Fails`.  The rest is
    induction over the documents. -/

namespace WorkloadEnv

/-- A computation in two steps fails in the first or, after it, in the second. -/
theorem bind_eq_error_iff {ε α β : Type} {x : Except ε α} {f : α → Except ε β} {e : ε} :
    (x >>= f) = .error e ↔ x = .error e ∨ ∃ a, x = .ok a ∧ f a = .error e := by
  cases x with
  | error e' => simp [bind, Except.bind]
  | ok a => simp [bind, Except.bind]

namespace Manifest

/-- What the YAML reader gives for one document: a value, or why there is none. -/
abbrev Outcome := Except Yaml.ReadFailure Yaml.Value

variable {o : Outcome} {os os' : List Outcome} {r : Option Document} {d : Document}
  {ds : List Document} {v : Yaml.Value} {vs : List Yaml.Value} {e : ManifestError}
  {t : Transformer} {i : Nat}

/-! ## One document -/

/-- What a document adds to the resources: a null one nothing, any other its decoding. -/
inductive Adds : Outcome → Option Document → Prop
  | nothing {v : Yaml.Value} (hnull : v.isNull = true) : Adds (.ok v) none
  | resource {v : Yaml.Value} {d : Document} (hnull : v.isNull = false)
      (hread : Document.read v = .ok d) : Adds (.ok v) (some d)

/-- How a document fails: it has no value, or its value is not null and no resource. -/
inductive Fails : Outcome → ManifestError → Prop
  | unread (failure : Yaml.ReadFailure) : Fails (.error failure) (.yaml (.ofReadFailure failure))
  | undecoded {v : Yaml.Value} {cause : DecodeError} (hnull : v.isNull = false)
      (hread : Document.read v = .error cause) : Fails (.ok v) (.yaml (.document cause))

theorem resourceOf_eq_ok_iff : resourceOf o = .ok r ↔ Adds o r := by
  constructor
  · intro h
    unfold resourceOf at h
    split at h
    · cases h
    · next v =>
      split at h
      · next hnull =>
        cases h
        exact .nothing hnull
      · next hnull =>
        split at h
        · next d hread =>
          cases h
          exact .resource (by simpa using hnull) hread
        · cases h
  · rintro (hnull | ⟨hnull, hread⟩)
    · simp [resourceOf, hnull]
    · simp [resourceOf, hnull, hread]

theorem resourceOf_eq_error_iff : resourceOf o = .error e ↔ Fails o e := by
  constructor
  · intro h
    unfold resourceOf at h
    split at h
    · cases h
      exact .unread _
    · next v =>
      split at h
      · cases h
      · next hnull =>
        split at h
        · cases h
        · next cause hread =>
          cases h
          exact .undecoded (by simpa using hnull) hread
  · rintro (- | ⟨hnull, hread⟩)
    · rfl
    · simp [resourceOf, hnull, hread]

/-- A document passes if it has a value that is null or decodes. -/
theorem exists_adds_iff :
    (∃ r, Adds o r) ↔ ∃ v, o = .ok v ∧ (v.isNull = false → ∃ d, Document.read v = .ok d) := by
  constructor
  · rintro ⟨r, hnull | ⟨hnull, hread⟩⟩
    · exact ⟨_, rfl, fun h => absurd (hnull.symm.trans h) (by decide)⟩
    · exact ⟨_, rfl, fun _ => ⟨_, hread⟩⟩
  · rintro ⟨v, rfl, h⟩
    cases hnull : v.isNull with
    | true => exact ⟨none, .nothing hnull⟩
    | false =>
      obtain ⟨d, hread⟩ := h hnull
      exact ⟨some d, .resource hnull hread⟩

/-! ## The whole stream -/

theorem ofOutcomes_cons_eq_ok_iff :
    ofOutcomes (o :: os) = .ok ds ↔
      ∃ r ds', Adds o r ∧ ofOutcomes os = .ok ds' ∧ ds = r.toList ++ ds' := by
  rw [ofOutcomes, bind_eq_ok_iff]
  simp only [bind_eq_ok_iff, resourceOf_eq_ok_iff, Except.ok.injEq]
  constructor
  · rintro ⟨r, hadds, ds', hds', rfl⟩
    exact ⟨r, ds', hadds, hds', rfl⟩
  · rintro ⟨r, ds', hadds, hds', rfl⟩
    exact ⟨r, hadds, ds', hds', rfl⟩

theorem ofOutcomes_cons_eq_error_iff :
    ofOutcomes (o :: os) = .error e ↔
      Fails o e ∨ (∃ r, Adds o r) ∧ ofOutcomes os = .error e := by
  rw [ofOutcomes, bind_eq_error_iff, resourceOf_eq_error_iff]
  simp only [bind_eq_error_iff, resourceOf_eq_ok_iff]
  refine or_congr_right ⟨?_, ?_⟩
  · rintro ⟨r, hadds, herror | ⟨ds, -, h⟩⟩
    · exact ⟨⟨r, hadds⟩, herror⟩
    · cases h
  · rintro ⟨⟨r, hadds⟩, herror⟩
    exact ⟨r, hadds, .inl herror⟩

/-- The values that are not null. -/
def present (vs : List Yaml.Value) : List Yaml.Value := vs.filter fun v => !v.isNull

theorem present_cons_of_null (h : v.isNull = true) : present (v :: vs) = present vs := by
  simp [present, h]

theorem present_cons_of_not_null (h : v.isNull = false) :
    present (v :: vs) = v :: present vs := by
  simp [present, h]

/-- **The resources are the decodings of the values that are not null**, in their order. -/
theorem ofOutcomes_eq_ok_iff :
    ofOutcomes os = .ok ds ↔ ∃ vs, os = vs.map .ok ∧
      List.Forall₂ (fun v d => Document.read v = .ok d) (present vs) ds := by
  induction os generalizing ds with
  | nil =>
    constructor
    · intro h
      cases h
      exact ⟨[], rfl, .nil⟩
    · rintro ⟨vs, hvs, hall⟩
      obtain rfl : vs = [] := by simpa using hvs.symm
      cases hall
      rfl
  | cons o os ih =>
    rw [ofOutcomes_cons_eq_ok_iff]
    constructor
    · rintro ⟨r, ds', hadds, hds', rfl⟩
      obtain ⟨vs, rfl, hall⟩ := ih.mp hds'
      rcases hadds with hnull | ⟨hnull, hread⟩
      · exact ⟨_ :: vs, rfl, (present_cons_of_null hnull).symm ▸ hall⟩
      · exact ⟨_ :: vs, rfl, (present_cons_of_not_null hnull).symm ▸ .cons hread hall⟩
    · rintro ⟨vs, hvs, hall⟩
      cases vs with
      | nil => cases hvs
      | cons v vs =>
        obtain ⟨rfl, rfl⟩ := List.cons.inj hvs
        cases hnull : v.isNull with
        | true =>
          rw [present_cons_of_null hnull] at hall
          exact ⟨none, ds, .nothing hnull, ih.mpr ⟨vs, rfl, hall⟩, rfl⟩
        | false =>
          rw [present_cons_of_not_null hnull] at hall
          obtain ⟨d, ds', hread, hrest, rfl⟩ := List.forall₂_cons_left_iff.mp hall
          exact ⟨some d, ds', .resource hnull hread, ih.mpr ⟨vs, rfl, hrest⟩, rfl⟩

/-- **The first document that fails decides which error it is**, whatever follows. -/
theorem ofOutcomes_eq_error_iff :
    ofOutcomes os = .error e ↔ ∃ before o after, os = before ++ o :: after ∧
      (∀ p ∈ before, ∃ r, Adds p r) ∧ Fails o e := by
  induction os with
  | nil =>
    refine ⟨fun h => (by cases h), ?_⟩
    rintro ⟨before, o, after, h, -⟩
    simp at h
  | cons p os ih =>
    rw [ofOutcomes_cons_eq_error_iff, ih]
    constructor
    · rintro (hfails | ⟨hadds, before, o, after, rfl, hbefore, hfails⟩)
      · exact ⟨[], p, os, rfl, fun p hp => (by cases hp), hfails⟩
      · exact ⟨p :: before, o, after, rfl, List.forall_mem_cons.mpr ⟨hadds, hbefore⟩, hfails⟩
    · rintro ⟨before, o, after, h, hbefore, hfails⟩
      cases before with
      | nil =>
        obtain ⟨rfl, rfl⟩ := List.cons.inj h
        exact .inl hfails
      | cons p' before =>
        obtain ⟨rfl, rfl⟩ := List.cons.inj h
        obtain ⟨hadds, hbefore⟩ := List.forall_mem_cons.mp hbefore
        exact .inr ⟨hadds, before, o, after, rfl, hbefore, hfails⟩

/-- A stream loads if each of its documents passes. -/
theorem exists_ofOutcomes_iff :
    (∃ ds, ofOutcomes os = .ok ds) ↔ ∀ o ∈ os, ∃ r, Adds o r := by
  induction os with
  | nil => exact ⟨fun _ o ho => (by cases ho), fun _ => ⟨[], rfl⟩⟩
  | cons o os ih =>
    rw [List.forall_mem_cons, ← ih]
    simp only [ofOutcomes_cons_eq_ok_iff]
    constructor
    · rintro ⟨-, r, ds, hadds, hds, -⟩
      exact ⟨⟨r, hadds⟩, ds, hds⟩
    · rintro ⟨⟨r, hadds⟩, ds, hds⟩
      exact ⟨_, r, ds, hadds, hds, rfl⟩

/-! ## Null documents -/

/-- Is there a value, and is it null? -/
def isNullDocument : Outcome → Bool
  | .ok v => v.isNull
  | .error _ => false

/-- The documents that are not null. -/
def withoutNulls (os : List Outcome) : List Outcome := os.filter fun o => !isNullDocument o

/-- Null documents do not matter, wherever they stand. -/
theorem ofOutcomes_withoutNulls (os : List Outcome) :
    ofOutcomes (withoutNulls os) = ofOutcomes os := by
  induction os with
  | nil => rfl
  | cons o os ih =>
    cases hnull : isNullDocument o with
    | true =>
      have hskip : withoutNulls (o :: os) = withoutNulls os := by simp [withoutNulls, hnull]
      have hnothing : resourceOf o = .ok none := by
        cases o with
        | error f => cases hnull
        | ok v => exact resourceOf_eq_ok_iff.mpr (.nothing hnull)
      rw [hskip, ih, ofOutcomes, hnothing]
      cases ofOutcomes os <;> rfl
    | false =>
      have hkeep : withoutNulls (o :: os) = o :: withoutNulls os := by simp [withoutNulls, hnull]
      rw [hkeep, ofOutcomes, ofOutcomes, ih]

/-! ## Failures of a loaded manifest -/

/-- A resource is found at the place that its value has among those that are not null. -/
theorem getElem?_of_decodings {P : Document → Prop}
    (h : List.Forall₂ (fun v d => Document.read v = .ok d) vs ds) :
    (∃ d, ds[i]? = some d ∧ P d) ↔
      ∃ v d, vs[i]? = some v ∧ Document.read v = .ok d ∧ P d := by
  induction h generalizing i with
  | nil => simp
  | cons hread _ ih =>
    cases i with
    | zero => simp [hread]
    | succ i => simpa using ih

/-- What a transformer reports on the resources of a stream names each by its place
    among the documents that are not null. -/
theorem mem_failures_of_ofOutcomes (h : ofOutcomes (vs.map .ok) = .ok ds) (t : Transformer)
    (e : ResourceError) :
    e ∈ ((⟨ds⟩ : Manifest).transform t).2 ↔
      ∃ v d, (present vs)[e.index]? = some v ∧ Document.read v = .ok d ∧
        (t d).2 = some e.source ∧ e.kind = d.kindName ∧ e.name = d.name := by
  obtain ⟨vs', hvs, hall⟩ := ofOutcomes_eq_ok_iff.mp h
  obtain rfl : vs = vs' := List.map_injective_iff.mpr (fun _ _ => Except.ok.inj) hvs
  rw [(reports_transform t ⟨ds⟩).exact]
  exact getElem?_of_decodings hall

/-- **Loading goes in order, skips the null documents and is all or nothing.**
    It succeeds if every document has a value that is null or decodes, and then
    the resources are the decodings of those that are not null; else the error
    is that of the first document that fails in either way.  So null documents
    can be put in or taken out anywhere, and a failure that is reported later
    gives the place among the others. -/
theorem loading_ordered (os : List Outcome) :
    ((∃ ds, ofOutcomes os = .ok ds) ↔ ∀ o ∈ os, ∃ v, o = .ok v ∧
      (v.isNull = false → ∃ d, Document.read v = .ok d)) ∧
    (∀ ds, ofOutcomes os = .ok ds ↔ ∃ vs, os = vs.map .ok ∧
      List.Forall₂ (fun v d => Document.read v = .ok d) (present vs) ds) ∧
    (∀ e, ofOutcomes os = .error e ↔ ∃ before o after, os = before ++ o :: after ∧
      (∀ p ∈ before, ∃ r, Adds p r) ∧ Fails o e) ∧
    (∀ os', withoutNulls os' = withoutNulls os → ofOutcomes os' = ofOutcomes os) ∧
    (∀ vs ds t e, os = vs.map .ok → ofOutcomes os = .ok ds →
      (e ∈ ((⟨ds⟩ : Manifest).transform t).2 ↔
        ∃ v d, (present vs)[e.index]? = some v ∧ Document.read v = .ok d ∧
          (t d).2 = some e.source ∧ e.kind = d.kindName ∧ e.name = d.name)) ∧
    (∀ s, Yaml.read s = os → ofYaml s = (ofOutcomes os).map Manifest.mk) := by
  refine ⟨?_, fun ds => ofOutcomes_eq_ok_iff, fun e => ofOutcomes_eq_error_iff, ?_, ?_, ?_⟩
  · rw [exists_ofOutcomes_iff]
    exact forall₂_congr fun o _ => exists_adds_iff
  · intro os' h
    rw [← ofOutcomes_withoutNulls os', h, ofOutcomes_withoutNulls]
  · rintro vs ds t e rfl h
    exact mem_failures_of_ofOutcomes h t e
  · rintro s rfl
    rfl

/-- A null document, a value that is no resource, and one that cannot be read: the
    second one decides, and without the first one all the same. -/
theorem loading_ordered_undecoded :
    ofOutcomes [.ok .null, .ok (.bool true), .error .malformed] =
      .error (.yaml (.document (.wrongType (.bool true) "struct DynamicObject"))) ∧
    ofOutcomes [.ok (.bool true), .error .malformed] =
      ofOutcomes [.ok .null, .ok (.bool true), .error .malformed] := by
  obtain ⟨-, -, herror, hnulls, -⟩ :=
    loading_ordered [.ok .null, .ok (.bool true), .error .malformed]
  refine ⟨(herror _).mpr ⟨[.ok .null], .ok (.bool true), [.error .malformed], rfl, ?_, ?_⟩,
    hnulls _ rfl⟩
  · intro p hp
    obtain rfl := List.mem_singleton.mp hp
    exact ⟨none, .nothing rfl⟩
  · exact .undecoded rfl rfl

end Manifest

end WorkloadEnv
