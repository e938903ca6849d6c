import WorkloadEnv.Workload.Sample
import WorkloadEnv.Proofs.Document.RoundTrip
import WorkloadEnv.Proofs.Transformer.Outcome
import WorkloadEnv.Proofs.Workload.Views

/-! # Sample workloads round trip

    A sample workload is written as one object, taken apart into a document, put
    together again and decoded.  Around any decoded pod spec it comes through
    unchanged, for each of the kinds (`document_round_trips`).

    Each level is its own normal form: without what is below it by evaluation,
    and with it because a normal form may be set as a member of another one
    (`Shape.HasMember.normal_put`).  So nothing is said here of the members a pod
    spec can have; that is the part of `Shape.stable`. -/

namespace WorkloadEnv.Sample

variable {kind : WorkloadKind} {name : String} {p : PodSpec} {n t : Json} {ms : Members Json}

/-! ## The pod spec of the template -/

/-- A pod spec in JSON, as it stands in a workload of the kind. -/
def restarted (kind : WorkloadKind) (j : Json) : Json :=
  match kind with
  | .job => .object (Members.put "restartPolicy" (.text "Never") j.members)
  | _ => j

theorem podSpec_hasMember_restartPolicy :
    Kubernetes.podSpec.HasMember "restartPolicy" (.optional, .text) :=
  ⟨_, _, _, rfl, by decide, rfl⟩

/-- A pod spec in JSON is one again with the restart policy of the kind. -/
theorem normal_restarted (hnormal : Kubernetes.podSpec.Normal n) (hproper : n.Proper)
    (kind : WorkloadKind) :
    Kubernetes.podSpec.Normal (restarted kind n) ∧ (restarted kind n).Proper := by
  cases kind with
  | job =>
    obtain ⟨ms, rfl⟩ := podSpec_hasMember_restartPolicy.object hnormal.read
    exact ⟨podSpec_hasMember_restartPolicy.normal_put hnormal ⟨rfl, trivial, rfl⟩,
      hproper.put ⟨trivial, trivial⟩⟩
  | _ => exact ⟨hnormal, hproper⟩

/-- The view of the changed JSON is the changed view. -/
theorem ofNormal_restarted (h : Members.Sorted ms) (kind : WorkloadKind) :
    .ofNormal (restarted kind (.object ms)) = restart kind (.ofNormal (.object ms)) := by
  cases kind with
  | job =>
    simp only [restart, restarted, PodSpec.ofNormal, Json.get?, Json.members, PodSpec.mk.injEq]
    refine ⟨?_, ?_, ?_⟩
    · rw [Members.get?_put_ne (by decide)]
    · rw [Members.get?_put_ne (by decide)]
    · rw [h.erase_put_ne (by decide), h.erase.erase_put_ne (by decide)]
  | _ => rfl

theorem restart_eq (hp : p.FromJson) (kind : WorkloadKind) :
    restart kind p = .ofNormal (restarted kind p.toJson) := by
  obtain ⟨hnormal, hproper, hview⟩ := hp.toJson
  obtain ⟨ms, hms⟩ := podSpec_hasMember_restartPolicy.object hnormal.read
  rw [hms] at hproper hview ⊢
  rw [ofNormal_restarted hproper.ordered.sorted, hview]

/-- The pod spec of a sample could have been decoded as it is. -/
theorem fromJson_restart (hp : p.FromJson) (kind : WorkloadKind) : (restart kind p).FromJson := by
  obtain ⟨hnormal, hproper, -⟩ := hp.toJson
  obtain ⟨hnormal', hproper'⟩ := normal_restarted hnormal hproper kind
  refine ⟨_, hproper', ?_⟩
  rw [PodSpec.read, hnormal'.read, restart_eq hp]
  rfl

/-- **The pod spec of a sample serialises as the one that was given**, but for the
    restart policy of a job. -/
theorem toJson_restart (hp : p.FromJson) (kind : WorkloadKind) :
    (restart kind p).toJson = restarted kind p.toJson := by
  obtain ⟨hnormal, hproper, -⟩ := hp.toJson
  obtain ⟨hnormal', hproper'⟩ := normal_restarted hnormal hproper kind
  rw [restart_eq hp]
  exact PodSpec.viewed _ _ hproper' hnormal'.read

/-! ## Level by level -/

/-- The template around what the pod spec is in JSON. -/
def templateOf (name : String) (t : Json) : Json :=
  .object (Members.put "spec" t [("metadata", .object [("labels", labels name)])])

/-- The spec around the template. -/
def specOf (kind : WorkloadKind) (name : String) (t : Json) : Json :=
  .object (Members.put "template" (templateOf name t) (settings kind name))

/-- The document around the spec. -/
def documentOf (kind : WorkloadKind) (name : String) (t : Json) : Document where
  types := some ⟨apiVersion kind, kind.name⟩
  metadata := (metadata name).members
  data := [("spec", specOf kind name t)]

theorem toJson_typed (kind : WorkloadKind) (name : String) (p : PodSpec) :
    (typed kind name p).toJson = .object (documentOf kind name (restart kind p).toJson).entries := by
  cases kind <;> rfl

theorem toJson_documentOf (kind : WorkloadKind) (name : String) (t : Json) :
    (documentOf kind name t).toJson = .object (documentOf kind name t).entries := by
  -- the members before the data are in order, so the data comes last
  rw [Document.toJson_eq, Document.header]
  simp only [documentOf, Members.putAll, List.foldl_cons, List.foldl_nil]
  rfl

theorem entries_documentOf (kind : WorkloadKind) (name : String) (t : Json) :
    (documentOf kind name t).entries = Members.put "spec" (specOf kind name t)
      [("apiVersion", .text (apiVersion kind)), ("kind", .text kind.name),
        ("metadata", metadata name)] := by
  cases kind <;> rfl

theorem normal_templateOf (ht : Kubernetes.podSpec.Normal t) (name : String) :
    Kubernetes.podTemplateSpec.Normal (templateOf name t) := by
  have hspec : Kubernetes.podTemplateSpec.HasMember "spec" (.optional, Kubernetes.podSpec) :=
    ⟨_, _, _, rfl, by decide, rfl⟩
  exact hspec.normal_put ⟨rfl, by decide_cbv, rfl⟩ ht

/-- What the settings of a kind leave open is the template.  Where there is a selector
    it is set in a spec that has an empty one. -/
theorem normal_settings (kind : WorkloadKind) (name : String) : ∃ s : Shape,
    kind.shape.HasMember "spec" (.optional, s) ∧
    s.HasMember "template" (.required, Kubernetes.podTemplateSpec) ∧
    s.Normal (.object (Members.put "template" (.object []) (settings kind name))) := by
  have hselector : Kubernetes.labelSelector.Normal (selector name) :=
    ⟨rfl, by decide_cbv, rfl⟩
  have hset : ∀ {s : Shape} {ms : Members Json},
      s.HasMember "selector" (.required, Kubernetes.labelSelector) → s.Normal (.object ms) →
      Members.put "selector" (selector name) ms =
        Members.put "template" (.object []) (settings kind name) →
      s.Normal (.object (Members.put "template" (.object []) (settings kind name))) := by
    intro s ms hp hs heq
    exact heq ▸ hp.normal_put hs hselector
  -- the numbers are checked here by evaluation, where nothing is left open
  cases kind with
  | deployment =>
    have hempty : Kubernetes.deploymentSpec.Normal (.object
        [("replicas", .int 2), ("selector", .object []), ("template", .object [])]) :=
      ⟨rfl, by decide, rfl⟩
    exact ⟨_, ⟨_, _, _, rfl, by decide, rfl⟩, ⟨_, _, _, rfl, by decide, rfl⟩,
      hset ⟨_, _, _, rfl, by decide, rfl⟩ hempty (by cbv)⟩
  | statefulSet =>
    have hempty : Kubernetes.statefulSetSpec.Normal (.object
        [("replicas", .int 1), ("selector", .object []), ("serviceName", .text ""),
          ("template", .object [])]) :=
      ⟨rfl, by decide, rfl⟩
    exact ⟨_, ⟨_, _, _, rfl, by decide, rfl⟩, ⟨_, _, _, rfl, by decide, rfl⟩,
      hset ⟨_, _, _, rfl, by decide, rfl⟩ hempty (by cbv)⟩
  | daemonSet =>
    have hempty : Kubernetes.daemonSetSpec.Normal (.object
        [("selector", .object []), ("template", .object [])]) :=
      ⟨rfl, by decide, rfl⟩
    exact ⟨_, ⟨_, _, _, rfl, by decide, rfl⟩, ⟨_, _, _, rfl, by decide, rfl⟩,
      hset ⟨_, _, _, rfl, by decide, rfl⟩ hempty (by cbv)⟩
  | job =>
    have hsettings : Kubernetes.jobSpec.Normal (.object
        [("backoffLimit", .int 3), ("template", .object [])]) :=
      ⟨rfl, by decide, rfl⟩
    exact ⟨_, ⟨_, _, _, rfl, by decide, rfl⟩, ⟨_, _, _, rfl, by decide, rfl⟩, hsettings⟩

theorem normal_metadata (name : String) : Kubernetes.objectMeta.Normal (metadata name) := by
  have hname : Kubernetes.objectMeta.HasMember "name" (.optional, .text) :=
    ⟨_, _, _, rfl, by decide, rfl⟩
  have hlabels : Kubernetes.objectMeta.HasMember "labels" (.optional, .map .text) :=
    ⟨_, _, _, rfl, by decide, rfl⟩
  have hempty : Kubernetes.objectMeta.Normal (.object
      [("labels", .object []), ("name", .text ""), ("namespace", .text "knative-serving")]) :=
    ⟨rfl, by decide, rfl⟩
  have hlabelled := hlabels.normal_put (x := labels name) hempty ⟨rfl, by decide_cbv, rfl⟩
  exact hname.normal_put hlabelled ⟨rfl, trivial, rfl⟩

/-- A workload that tells its type and has metadata is complete. -/
theorem normal_typeAndMetadata (kind : WorkloadKind) (name : String) :
    kind.shape.Normal (.object [("apiVersion", .text (apiVersion kind)), ("kind", .text kind.name),
      ("metadata", metadata name)]) := by
  have hempty : kind.shape.Normal (.object [("apiVersion", .text (apiVersion kind)),
      ("kind", .text kind.name), ("metadata", .object [])]) := by
    cases kind <;> exact ⟨rfl, by decide, rfl⟩
  exact (Workload.shape_hasMember_metadata kind).normal_put hempty (normal_metadata name)

/-- **The whole document is a normal form** of its kind if the pod spec is one. -/
theorem normal_documentOf (ht : Kubernetes.podSpec.Normal t) (kind : WorkloadKind) (name : String) :
    kind.shape.Normal (documentOf kind name t).toJson := by
  obtain ⟨s, hspec, htemplate, hsettings⟩ := normal_settings kind name
  have hs : s.Normal (specOf kind name t) := by
    -- the template that is given takes the place of the empty one
    have hput := htemplate.normal_put hsettings (normal_templateOf ht name)
    rwa [Members.put_put_self] at hput
  rw [toJson_documentOf, entries_documentOf]
  exact hspec.normal_put (normal_typeAndMetadata kind name) hs

/-! ## The document -/

theorem finite_specOf (ht : t.Finite) (kind : WorkloadKind) (name : String) :
    (specOf kind name t).Finite := by
  have htemplate : (templateOf name t).Finite := by
    refine Json.Finite.put ?_ ht
    simp [Json.Finite, Json.FiniteMembers, labels]
  refine Json.Finite.put ?_ htemplate
  cases kind <;> simp [settings, selector, labels, Json.Finite, Json.FiniteMembers]

theorem readsBack_documentOf (hn : Kubernetes.podSpec.Normal t) (ht : t.Finite)
    (kind : WorkloadKind) (name : String) : (documentOf kind name t).ReadsBack id where
  wellFormed := by
    -- the data is part of the whole document, which is ordered as a normal form
    have hordered := (normal_documentOf hn kind name).ordered
    rw [toJson_documentOf, Json.ordered_object_iff] at hordered
    refine ⟨Json.ordered_object_iff.mpr ⟨List.pairwise_singleton _ _, fun m hm => ?_⟩, rfl⟩
    refine hordered.2 m ?_
    rw [Document.entries_eq]
    exact List.mem_append_right _ (List.mem_cons_of_mem _ hm)
  finite := ⟨finite_specOf ht kind name, trivial⟩
  get?_apiVersion := rfl
  get?_kind := rfl
  sorted_metadata := (normal_metadata name).ordered.sorted
  metadata := (normal_metadata name).read

theorem ofNormal_documentOf (hp : .ofNormal t = restart kind p) (name : String) :
    Workload.ofNormal (documentOf kind name t).toJson = typed kind name p := by
  rw [toJson_documentOf, typed, ← hp]
  cases kind <;> rfl

/-- The document that a sample is read as. -/
theorem document_eq (hp : p.FromJson) (kind : WorkloadKind) (name : String) :
    document kind name p = .ok (documentOf kind name (restart kind p).toJson) := by
  obtain ⟨hnormal, hproper, -⟩ := (fromJson_restart hp kind).toJson
  rw [document, toJson_typed]
  exact (readsBack_documentOf hnormal hproper.finite kind name).read Json.carries_id

theorem decode_documentOf (hp : p.FromJson) (kind : WorkloadKind) (name : String) :
    Workload.decode kind (documentOf kind name (restart kind p).toJson) =
      .ok (typed kind name p) := by
  obtain ⟨hnormal, -, hview⟩ := (fromJson_restart hp kind).toJson
  exact Workload.decode_eq_ok_iff.mpr
    ⟨_, (normal_documentOf hnormal kind name).read, ofNormal_documentOf hview name⟩

/-! ## Round trips -/

theorem podSpecOf?_of_decode {d : Document} {w : Workload}
    (hkind : WorkloadKind.ofDocument? d = some kind) (hw : Workload.decode kind d = .ok w)
    (hp : w.podSpec? = some p) : podSpecOf? d = some p := by
  simp only [podSpecOf?, hkind, hw, Except.toOption, bind, Option.bind, hp, Option.getD_some]

/-- **Samples round trip through the typed schema.**  Around any decoded pod spec a
    sample of each kind becomes a document of that kind and name, which decodes as
    the workload it was made from.  Its pod spec serialises as the one that was
    given, but for the restart policy of a job, and every version is injected into
    that pod spec and no other. -/
theorem document_round_trips (hp : p.FromJson) (kind : WorkloadKind) (name : String) :
    ∃ d q, document kind name p = .ok d ∧
      WorkloadKind.ofDocument? d = some kind ∧ d.name = name ∧
      Workload.decode kind d = .ok (typed kind name p) ∧
      podSpecOf? d = some q ∧ q.toJson = restarted kind p.toJson ∧
      ∀ v, v ≠ "" → ∃ d', (MinVersionTransform.ofVersion v).transformer d = (d', none) ∧
        podSpecOf? d' = some (q.mergeEnv [.plain minVersionVariable v]) := by
  obtain ⟨hnormal, hproper, -⟩ := (fromJson_restart hp kind).toJson
  have hdecode := decode_documentOf hp kind name
  have hwf := (readsBack_documentOf hnormal hproper.finite kind name).wellFormed
  have hkind : WorkloadKind.ofDocument? (documentOf kind name (restart kind p).toJson) = some kind :=
    WorkloadKind.ofName?_name kind
  refine ⟨_, restart kind p, document_eq hp kind name, hkind, rfl, hdecode,
    podSpecOf?_of_decode hkind hdecode rfl, toJson_restart hp kind, fun v hv => ?_⟩
  -- the outcome is of the same kind and decodes with the merged pod spec
  have hkind' : WorkloadKind.ofDocument?
      (MinVersionTransform.outcome v (documentOf kind name (restart kind p).toJson)) = some kind :=
    hkind
  obtain ⟨w, hw, hspec⟩ := MinVersionTransform.decode_outcome hwf hdecode v
  refine ⟨_, ?_, podSpecOf?_of_decode hkind' hw ?_⟩
  · rw [MinVersionTransform.transformer_eq_iff, MinVersionTransform.apply_of_kind hwf hv hkind,
      hdecode]
    rfl
  · rw [Workload.podSpec?, hspec]
    rfl

/-- A pod spec that has a restart policy already. -/
def restartable : PodSpec where
  containers := [container "migrate" none (some [.plain minVersionVariable "v1.19.0"])]
  initContainers := none
  others := [("restartPolicy", .text "Always")]

theorem restartable_fromJson : restartable.FromJson :=
  ⟨restartable.toJson, ⟨by decide, by repeat' constructor⟩, rfl⟩

/-- A job around it has the policy of jobs. -/
theorem document_round_trips_job : ∃ d q d',
    document .job "migrate" restartable = .ok d ∧ podSpecOf? d = some q ∧
    q.toJson.get? "restartPolicy" = some (.text "Never") ∧
    (MinVersionTransform.ofVersion "v1.25.0").transformer d = (d', none) ∧
    podSpecOf? d' = some (q.mergeEnv [.plain minVersionVariable "v1.25.0"]) := by
  obtain ⟨d, q, hd, -, -, -, hq, hjson, hinject⟩ :=
    document_round_trips restartable_fromJson .job "migrate"
  obtain ⟨d', htransform, hq'⟩ := hinject "v1.25.0" (by decide)
  exact ⟨d, q, d', hd, hq, by rw [hjson]; rfl, htransform, hq'⟩

end WorkloadEnv.Sample
