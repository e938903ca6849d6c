import WorkloadEnv.Manifest.Basic
import Mathlib.Data.List.Forall2

/-! # A pipeline over a manifest

    Any transformers at all are applied to a manifest, one after the other.  A
    transformer may change a resource before it fails on it, its name and its
    kind included.

    The loop over the resources is described by its invariant: behind it stand
    the resources as they settled and the failures of those before the index
    (`Progress.run_eq`).  From this a pass treats each resource by itself
    (`transform_eq`), and a pipeline does, by induction over the transformers
    (`pipeline_isolated`). -/

namespace WorkloadEnv

/-! ## One resource -/

/-- What a resource becomes: what a transformer makes of it if it succeeds, and else
    what it was. -/
def Transformer.settle (t : Transformer) (d : Document) : Document :=
  if (t d).2.isSome then d else (t d).1

namespace Manifest

variable {t : Transformer} {ts : List Transformer} {d : Document} {ds ds' : List Document}
  {e : ResourceError} {m : Manifest} {i k n : Nat}

/-- The failure of a transformer on the resource of that index, if it fails. -/
def failure? (t : Transformer) (index : Nat) (d : Document) : Option ResourceError :=
  (t d).2.map fun source => { index, kind := d.kindName, name := d.name, source }

/-- The failures on resources of which the first has the given index. -/
def failuresFrom (t : Transformer) : Nat → List Document → List ResourceError
  | _, [] => []
  | index, d :: ds => (failure? t index d).toList ++ failuresFrom t (index + 1) ds

theorem index_of_failure? (h : failure? t i d = some e) : e.index = i := by
  unfold failure? at h
  obtain ⟨source, -, rfl⟩ := Option.map_eq_some_iff.mp h
  rfl

/-! ## The loop over the resources -/

/-- One visit settles the resource and reports it if the transformer failed. -/
theorem Progress.visit_eq (t : Transformer) (i : Nat) (d : Document) (p : Progress) :
    p.visit t i d =
      { resources := p.resources ++ [t.settle d]
        failures := p.failures ++ (failure? t i d).toList } := by
  unfold Progress.visit Transformer.settle failure?
  -- what is left of the failed attempt is dropped before the failure is written down
  rcases h : t d with ⟨d', - | source⟩
  · simp
  · simp

/-- **The invariant of the loop.**  The resources that were visited stand as they
    settled, in their order, behind what was there; so do the failures. -/
theorem Progress.run_eq (t : Transformer) (i : Nat) (ds : List Document) (p : Progress) :
    Progress.run t i ds p =
      { resources := p.resources ++ ds.map t.settle
        failures := p.failures ++ failuresFrom t i ds } := by
  induction ds generalizing i p with
  | nil => simp [Progress.run, failuresFrom]
  | cons d ds ih =>
    rw [Progress.run, ih, Progress.visit_eq]
    simp [failuresFrom, List.append_assoc]

/-- **A pass settles each resource by itself.** -/
theorem transform_eq (t : Transformer) (m : Manifest) :
    m.transform t = (⟨m.resources.map t.settle⟩, failuresFrom t 0 m.resources) := by
  simp only [transform, Progress.run_eq, List.nil_append]

/-! ## The failures of a pass -/

/-- There is a failure for each resource that a transformer fails on, and for no other. -/
theorem mem_failuresFrom_iff :
    e ∈ failuresFrom t i ds ↔ ∃ k d, ds[k]? = some d ∧ failure? t (i + k) d = some e := by
  induction ds generalizing i with
  | nil => simp [failuresFrom]
  | cons d ds ih =>
    rw [failuresFrom, List.mem_append, Option.mem_toList, ih]
    constructor
    · rintro (h | ⟨k, d', hd', h⟩)
      · exact ⟨0, d, rfl, h⟩
      · refine ⟨k + 1, d', by simpa using hd', ?_⟩
        rwa [show i + (k + 1) = i + 1 + k by omega]
    · rintro ⟨k, d', hd', h⟩
      cases k with
      | zero =>
        obtain rfl : d = d' := by simpa using hd'
        exact .inl h
      | succ k =>
        refine .inr ⟨k, d', by simpa using hd', ?_⟩
        rwa [show i + 1 + k = i + (k + 1) by omega]

theorem le_index_of_mem (h : e ∈ failuresFrom t i ds) : i ≤ e.index := by
  obtain ⟨k, d, -, hfailure⟩ := mem_failuresFrom_iff.mp h
  have hindex := index_of_failure? hfailure
  omega

/-- The failures are in the order of the resources, one for each at most. -/
theorem pairwise_failuresFrom (t : Transformer) (i : Nat) (ds : List Document) :
    (failuresFrom t i ds).Pairwise fun e e' => e.index < e'.index := by
  induction ds generalizing i with
  | nil => exact .nil
  | cons d ds ih =>
    rw [failuresFrom, List.pairwise_append]
    refine ⟨?_, ih (i + 1), ?_⟩
    · cases failure? t i d with
      | none => exact .nil
      | some e => exact List.pairwise_singleton _ e
    · intro e he e' he'
      -- the resource itself has the index, those behind it greater ones
      have hindex : e.index = i := index_of_failure? (Option.mem_toList.mp he)
      have hle := le_index_of_mem he'
      omega

theorem failuresFrom_append (t : Transformer) (i : Nat) (ds ds' : List Document) :
    failuresFrom t i (ds ++ ds') =
      failuresFrom t i ds ++ failuresFrom t (i + ds.length) ds' := by
  induction ds generalizing i with
  | nil => simp [failuresFrom]
  | cons d ds ih =>
    have hlength : i + 1 + ds.length = i + (d :: ds).length := by
      rw [List.length_cons]
      omega
    rw [List.cons_append, failuresFrom, failuresFrom, ih, hlength, List.append_assoc]

/-- Moves a failure by a number of places. -/
def shift (n : Nat) (e : ResourceError) : ResourceError := { e with index := n + e.index }

theorem failuresFrom_add (t : Transformer) (n i : Nat) (ds : List Document) :
    failuresFrom t (n + i) ds = (failuresFrom t i ds).map (shift n) := by
  induction ds generalizing i with
  | nil => rfl
  | cons d ds ih =>
    have hfailure : failure? t (n + i) d = (failure? t i d).map (shift n) := by
      unfold failure?
      rw [Option.map_map]
      rfl
    rw [failuresFrom, failuresFrom, Nat.add_assoc, ih, List.map_append, hfailure]
    cases failure? t i d <;> rfl

/-- What a pass over some resources has to report. -/
structure Reports (t : Transformer) (before : List Document) (failures : List ResourceError) :
    Prop where
  /-- There is a failure for each resource the transformer fails on, with the kind and
      the name it had before and the error of the transformer; and there is no other. -/
  exact : ∀ e, e ∈ failures ↔ ∃ d, before[e.index]? = some d ∧ (t d).2 = some e.source ∧
    e.kind = (d.types.map TypeMeta.kind).getD "" ∧ e.name = d.name
  /-- The indices increase, so there are no two failures for one resource. -/
  increasing : failures.Pairwise fun e e' => e.index < e'.index

theorem reports_transform (t : Transformer) (m : Manifest) :
    Reports t m.resources (m.transform t).2 := by
  rw [transform_eq]
  constructor
  · intro e
    rw [mem_failuresFrom_iff]
    constructor
    · rintro ⟨k, d, hd, h⟩
      unfold failure? at h
      obtain ⟨source, hsource, rfl⟩ := Option.map_eq_some_iff.mp h
      exact ⟨d, by simpa using hd, hsource, rfl, rfl⟩
    · rintro ⟨d, hd, hsource, hkind, hname⟩
      refine ⟨e.index, d, hd, ?_⟩
      obtain ⟨index, kind, name, source⟩ := e
      subst hkind hname
      simp [failure?, hsource, Document.kindName]
  · exact pairwise_failuresFrom t 0 m.resources

/-- Nothing is reported exactly if the transformer succeeds on each resource. -/
theorem map_settle_eq_iff :
    ds.map t.settle = ds' ∧ failuresFrom t i ds = [] ↔
      List.Forall₂ (fun d d' => t d = (d', none)) ds ds' := by
  induction ds generalizing ds' i with
  | nil => simp [failuresFrom, eq_comm]
  | cons d ds ih =>
    cases ds' with
    | nil => simp
    | cons d' ds' =>
      rw [List.map_cons, List.cons.injEq, failuresFrom, List.append_eq_nil_iff,
        Option.toList_eq_nil_iff, List.forall₂_cons, ← ih]
      -- what is left is the first resource: it settles and is not reported
      have hhead : (t.settle d = d' ∧ failure? t i d = none) ↔ t d = (d', none) := by
        unfold Transformer.settle failure?
        rcases t d with ⟨d'', - | source⟩ <;> simp
      rw [← hhead]
      tauto

/-- A pass without failures is a success on every resource. -/
theorem transform_eq_nil_iff {m' : Manifest} :
    m.transform t = (m', []) ↔
      List.Forall₂ (fun d d' => t d = (d', none)) m.resources m'.resources := by
  obtain ⟨ds'⟩ := m'
  rw [transform_eq, Prod.mk.injEq, Manifest.mk.injEq]
  exact map_settle_eq_iff

/-! ## Pipelines -/

/-- Applies the transformers one after the other, and keeps what each reports. -/
def pipeline : List Transformer → Manifest → Manifest × List (List ResourceError)
  | [], m => (m, [])
  | t :: ts, m =>
    let r := m.transform t
    let rest := pipeline ts r.1
    (rest.1, r.2 :: rest.2)

/-- Each resource goes through the transformers by itself. -/
theorem resources_pipeline (ts : List Transformer) (m : Manifest) :
    (pipeline ts m).1.resources =
      m.resources.map fun d => ts.foldl (fun d t => t.settle d) d := by
  induction ts generalizing m with
  | nil => simp [pipeline]
  | cons t ts ih =>
    rw [pipeline, ih, transform_eq, List.map_map]
    rfl

/-- There is one report for each transformer. -/
theorem length_pipeline (ts : List Transformer) (m : Manifest) :
    (pipeline ts m).2.length = ts.length := by
  induction ts generalizing m with
  | nil => rfl
  | cons t ts ih => rw [pipeline, List.length_cons, ih, List.length_cons]

/-- A report is that of its transformer on what the ones before have left. -/
theorem getElem?_pipeline (ts : List Transformer) (m : Manifest) (k : Nat) :
    (pipeline ts m).2[k]? =
      ts[k]?.map fun t => ((pipeline (ts.take k) m).1.transform t).2 := by
  induction ts generalizing m k with
  | nil => simp [pipeline]
  | cons t ts ih =>
    cases k with
    | zero => simp [pipeline]
    | succ k =>
      rw [pipeline, List.getElem?_cons_succ, ih, List.getElem?_cons_succ, List.take_succ_cons]
      rfl

/-- The resources of one manifest after those of another. -/
def append (m m' : Manifest) : Manifest := ⟨m.resources ++ m'.resources⟩

/-- A pass over two manifests in a row is a pass over each. -/
theorem transform_append (t : Transformer) (m m' : Manifest) :
    (m.append m').transform t =
      ((m.transform t).1.append (m'.transform t).1,
        (m.transform t).2 ++ (m'.transform t).2.map (shift m.resources.length)) := by
  simp only [transform_eq, append, List.map_append]
  rw [failuresFrom_append, Nat.zero_add, ← failuresFrom_add, Nat.add_zero]

theorem length_resources_transform (t : Transformer) (m : Manifest) :
    (m.transform t).1.resources.length = m.resources.length := by
  rw [transform_eq, List.length_map]

/-- The manifests do not meet in any pass, as none of them changes its length. -/
theorem pipeline_append (ts : List Transformer) (m m' : Manifest) :
    pipeline ts (m.append m') =
      ((pipeline ts m).1.append (pipeline ts m').1,
        List.zipWith (fun fs fs' => fs ++ fs'.map (shift m.resources.length))
          (pipeline ts m).2 (pipeline ts m').2) := by
  induction ts generalizing m m' with
  | nil => rfl
  | cons t ts ih =>
    simp only [pipeline, transform_append, ih, List.zipWith_cons_cons, length_resources_transform]

/-- **Resources are isolated from one another.**  Whatever the transformers do, there
    are as many resources as before and in the same order; each has gone through
    the transformers by itself, skipping those that failed on it; each
    transformer reports exactly the resources it failed on, in their order and
    as they were before it; and two manifests in a row are transformed as each
    of them is. -/
theorem pipeline_isolated (ts : List Transformer) (m m' : Manifest) :
    ((pipeline ts m).1.resources =
      m.resources.map fun d => ts.foldl (fun d t => t.settle d) d) ∧
    (pipeline ts m).2.length = ts.length ∧
    (∀ k t failures, ts[k]? = some t → (pipeline ts m).2[k]? = some failures →
      Reports t (pipeline (ts.take k) m).1.resources failures) ∧
    pipeline ts (m.append m') =
      ((pipeline ts m).1.append (pipeline ts m').1,
        List.zipWith (fun fs fs' => fs ++ fs'.map (shift m.resources.length))
          (pipeline ts m).2 (pipeline ts m').2) := by
  refine ⟨resources_pipeline ts m, length_pipeline ts m, ?_, pipeline_append ts m m'⟩
  intro k t failures ht hfailures
  rw [getElem?_pipeline, ht] at hfailures
  cases hfailures
  exact reports_transform t _

/-- Takes type and name away and then fails on what is called `locked`, and renames
    anything else to that. -/
def sampleTransformer : Transformer := fun d =>
  if d.name = "locked" then
    ({ d with types := none, metadata := [] }, some (.decode .job "locked" .tagInData))
  else ({ d with metadata := [("name", .text "locked")] }, none)

/-- A resource that is locked and one that is not, the latter behind the former. -/
def sampleResources : List Document :=
  [⟨some ⟨"v1", "Pod"⟩, [("name", .text "locked")], []⟩, ⟨none, [("name", .text "open")], []⟩]

/-- The second pass fails on both resources, and reports them as the first pass left
    them. -/
theorem pipeline_isolated_locked :
    Reports sampleTransformer
      [⟨some ⟨"v1", "Pod"⟩, [("name", .text "locked")], []⟩,
        ⟨none, [("name", .text "locked")], []⟩]
      [⟨0, "Pod", "locked", .decode .job "locked" .tagInData⟩,
        ⟨1, "", "locked", .decode .job "locked" .tagInData⟩] :=
  (pipeline_isolated [sampleTransformer, sampleTransformer] ⟨sampleResources⟩ empty).2.2.1
    1 sampleTransformer _ rfl rfl

end Manifest

end WorkloadEnv
