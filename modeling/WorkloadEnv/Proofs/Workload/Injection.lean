import WorkloadEnv.Proofs.Document
import WorkloadEnv.Proofs.Workload.Containers

/-! # Injecting into a document

    Injection reads a document as a typed workload and writes into the raw one.
    What happens to the raw document is told without the typed workload: once
    the document decodes, the value where the pod spec stands is changed, and
    the change depends on that value alone (`PodSpec.inject`, `injectEnv_eq`).

    Two results rest on this.  Decoding what was injected gives the workload
    with its pod spec merged (`decode_injected`), so nothing that is skipped on
    the way was ever due.  And injecting again changes nothing of the raw
    document (`injected_injected`). -/

namespace WorkloadEnv

/-! ## The change of a pod spec -/

namespace PodSpec

open Kubernetes

variable {t n : Json} {o : List EnvVar}

/-- What injecting makes of a raw pod spec; what is none stays as it is. -/
def inject (o : List EnvVar) (t : Json) : Json :=
  match read t with
  | .ok p => (p.mergeEnv o).writeOver t
  | .error _ => t

theorem inject_of_read (h : podSpec.read t = .ok n) :
    inject o t = ((ofNormal n).mergeEnv o).writeOver t := by
  simp only [inject, read, h, Except.map]

/-- What is no pod spec stays as it is. -/
theorem inject_of_read_error {cause : DecodeError} (h : podSpec.read t = .error cause) :
    inject o t = t := by
  simp only [inject, read, h, Except.map]

theorem inject_of_isNull (h : t.isNull = true) : inject o t = t := by
  cases t with
  | null => rfl
  | _ => cases h

theorem mergeEnv_mergeEnv {o' : List EnvVar} (h : o.map EnvVar.name = o'.map EnvVar.name)
    (p : PodSpec) : (p.mergeEnv o).mergeEnv o' = p.mergeEnv o' := by
  have hcontainer : Container.mergeEnv o' ∘ Container.mergeEnv o = Container.mergeEnv o' :=
    funext (Container.mergeEnv_mergeEnv h)
  simp [mergeEnv, Option.map_map, hcontainer]

theorem writeOver_writeOver (p : PodSpec) (t : Json) :
    p.writeOver (p.writeOver t) = p.writeOver t := by
  have h : ∀ cs, Container.writeList cs ∘ Container.writeList cs = Container.writeList cs :=
    fun cs => funext (Container.writeList_writeList cs)
  simp only [writeOver_eq]
  -- the second writing of the containers goes next to the first one
  rw [Json.modifyAt_comm (by decide), Json.modifyAt_modifyAt_self, h,
    Json.modifyAt_comm (by decide), Json.modifyAt_modifyAt_self, h]

theorem isNull_of_read (h : podSpec.read t = .ok n) : t.isNull = false := by
  obtain ⟨ms, rfl⟩ := hasMember_containers.object h
  rfl

/-- The raw containers and init containers read as the typed ones. -/
theorem readsAll_of_read (ht : t.Ordered) (h : podSpec.read t = .ok n) :
    Container.ReadsAll (t.itemsAt "containers") (ofNormal n).containers ∧
      Container.ReadsAll (t.itemsAt "initContainers") ((ofNormal n).initContainers.getD []) := by
  obtain ⟨ms, rfl⟩ := hasMember_containers.object h
  rw [containers_ofNormal, initContainers_ofNormal]
  exact ⟨hasMember_containers.readsAll_containersAt ht.sorted h,
    hasMember_initContainers.readsAll_containersAt ht.sorted h⟩

/-- A raw pod spec reads as the merged one once it was injected into. -/
theorem read_inject (ht : t.Ordered) (h : podSpec.read t = .ok n) (o : List EnvVar) :
    ∃ n', podSpec.read (inject o t) = .ok n' ∧ ofNormal n' = (ofNormal n).mergeEnv o := by
  rw [inject_of_read h]
  exact read_writeOver ht h o

theorem ordered_inject (ht : t.Ordered) (o : List EnvVar) : (inject o t).Ordered := by
  unfold inject
  split
  · exact ordered_writeOver ht _
  · exact ht

/-- Injecting twice is injecting once. -/
theorem inject_inject (ht : t.Ordered) (o : List EnvVar) :
    inject o (inject o t) = inject o t := by
  cases h : podSpec.read t with
  | error e => rw [inject_of_read_error h, inject_of_read_error h]
  | ok n =>
    -- the second time the merged pod spec is read and written over itself
    obtain ⟨n', hn', heq⟩ := read_inject ht h o
    rw [inject_of_read hn', heq, inject_of_read h, mergeEnv_mergeEnv rfl, writeOver_writeOver]

end PodSpec

namespace Workload

variable {d : Document} {kind : WorkloadKind} {w : Workload} {n : Json}

/-! ## The pod spec of a workload -/

theorem workload_leads {spec : Shape}
    (h : spec.HasMember "template" (.required, Kubernetes.podTemplateSpec))
    (apiVersion kind : String) (status : Shape) :
    (Kubernetes.workload apiVersion kind spec status).Leads podSpecPath Kubernetes.podSpec := by
  have hspec : (Kubernetes.workload apiVersion kind spec status).HasMember "spec"
      (.optional, spec) := by
    refine ⟨_, _, _, rfl, ?_, rfl⟩
    show List.Pairwise (· < ·) ["apiVersion", "kind", "metadata", "spec", "status"]
    decide
  have hpod : Kubernetes.podTemplateSpec.HasMember "spec" (.optional, Kubernetes.podSpec) :=
    ⟨_, _, _, rfl, by decide, rfl⟩
  -- a template that is missing stands for one without a pod spec
  have htemplate : (Shape.missing (.required, Kubernetes.podTemplateSpec)).bind
      (Json.at? ["spec"]) = none := rfl
  exact ⟨_, hspec, rfl, _, h, htemplate, _, hpod, rfl, rfl⟩

/-- Every kind of workload has its pod spec at the end of the one path. -/
theorem shape_leads (kind : WorkloadKind) : kind.shape.Leads podSpecPath Kubernetes.podSpec := by
  cases kind with
  | deployment => exact workload_leads ⟨_, _, _, rfl, by decide, rfl⟩ _ _ _
  | statefulSet => exact workload_leads ⟨_, _, _, rfl, by decide, rfl⟩ _ _ _
  | daemonSet => exact workload_leads ⟨_, _, _, rfl, by decide, rfl⟩ _ _ _
  | job => exact workload_leads ⟨_, _, _, rfl, by decide, rfl⟩ _ _ _

theorem podSpec?_ofNormal (n : Json) :
    (ofNormal n).podSpec? = (n.at? podSpecPath).map PodSpec.ofNormal := by
  show ((n.get? "spec").map WorkloadSpec.ofNormal).bind (fun s => s.template.spec) =
    ((n.get? "spec").bind (Json.at? ["template", "spec"])).map PodSpec.ofNormal
  cases n.get? "spec" with
  | none => rfl
  | some s =>
    -- a template that is missing is seen as an empty one, which has no pod spec
    show (((s.get? "template").getD (.object [])).get? "spec").map PodSpec.ofNormal =
      ((s.get? "template").bind (Json.at? ["spec"])).map PodSpec.ofNormal
    cases s.get? "template" with
    | none => rfl
    | some t =>
      show (t.get? "spec").map PodSpec.ofNormal = (t.at? ["spec"]).map PodSpec.ofNormal
      rw [Json.at?_singleton]

theorem template_modifyAt (m t : Json) :
    PodTemplate.ofNormal (t.modifyAt (fun _ => m) ["spec"]) =
      { PodTemplate.ofNormal t with
        spec := (PodTemplate.ofNormal t).spec.map fun _ => PodSpec.ofNormal m } := by
  simp [PodTemplate.ofNormal, Json.get?_modifyAt_self, Function.comp_def]

/-- Putting a pod spec into a normal form is putting it into the workload it shows. -/
theorem ofNormal_modifyAt (n m : Json) :
    ofNormal (n.modifyAt (fun _ => m) podSpecPath) =
      (ofNormal n).modifyPodSpec fun _ => PodSpec.ofNormal m := by
  unfold podSpecPath
  -- one level after the other: below the member the change, beside it nothing
  rw [ofNormal, ofNormal, modifyPodSpec, Json.get?_modifyAt_self, Json.members_modifyAt,
    Members.erase_modify_self]
  cases n.get? "spec" with
  | none => rfl
  | some s =>
    simp only [Option.map_some, WorkloadSpec.ofNormal, Json.get?_modifyAt_self,
      Json.members_modifyAt, Members.erase_modify_self]
    cases s.get? "template" with
    | none => rfl
    | some t => simp only [Option.map_some, Option.getD_some, template_modifyAt]

/-- Only what happens to the pod spec counts, if there is one. -/
theorem modifyPodSpec_congr {f g : PodSpec → PodSpec} (h : ∀ p, w.podSpec? = some p → f p = g p) :
    w.modifyPodSpec f = w.modifyPodSpec g := by
  obtain ⟨spec, others⟩ := w
  cases spec with
  | none => rfl
  | some s =>
    obtain ⟨⟨spec, more⟩, rest⟩ := s
    cases spec with
    | none => rfl
    | some p =>
      have hp := h p rfl
      show Workload.mk (some ⟨⟨some (f p), more⟩, rest⟩) others = _
      rw [hp]
      rfl

theorem modifyPodSpec_of_none {f : PodSpec → PodSpec} (h : w.podSpec? = none) :
    w.modifyPodSpec f = w := by
  obtain ⟨spec, others⟩ := w
  cases spec with
  | none => rfl
  | some s =>
    obtain ⟨⟨spec, more⟩, rest⟩ := s
    cases spec with
    | none => rfl
    | some p => cases h

/-- Two changes of the pod spec are one. -/
theorem modifyPodSpec_modifyPodSpec (f g : PodSpec → PodSpec) (w : Workload) :
    (w.modifyPodSpec g).modifyPodSpec f = w.modifyPodSpec (f ∘ g) := by
  obtain ⟨spec, others⟩ := w
  cases spec with
  | none => rfl
  | some s => simp [modifyPodSpec]

/-! ## What decoding says of the raw document -/

theorem decode_eq_ok_iff :
    decode kind d = .ok w ↔ ∃ n, kind.shape.read d.toJson = .ok n ∧ ofNormal n = w := by
  unfold decode
  cases kind.shape.read d.toJson with
  | ok n => simp
  | error cause => simp

theorem decode_eq_error {e : TransformError} (h : decode kind d = .error e) :
    ∃ cause, e = .decode kind d.name cause := by
  unfold decode at h
  cases hread : kind.shape.read d.toJson with
  | ok n =>
    rw [hread] at h
    cases h
  | error cause =>
    rw [hread] at h
    exact ⟨cause, (Except.error.inj h).symm⟩

theorem spec_notMem_headerNames : "spec" ∉ Document.headerNames := by decide

theorem at?_toJson (hd : d.WellFormed) :
    d.toJson.at? podSpecPath = (Json.object d.data).at? podSpecPath :=
  hd.at?_toJson spec_notMem_headerNames

/-- **The typed pod spec and the raw one are there together.**  If the workload has
    none, the raw document has none or null; if it has one, that is what the raw
    one reads as. -/
theorem podSpec?_cases (hd : d.WellFormed) (h : kind.shape.read d.toJson = .ok n) :
    ((ofNormal n).podSpec? = none ∧
      ∀ t, (Json.object d.data).at? podSpecPath = some t → t.isNull = true) ∨
    ∃ t m, (Json.object d.data).at? podSpecPath = some t ∧ Kubernetes.podSpec.read t = .ok m ∧
      (ofNormal n).podSpec? = some (PodSpec.ofNormal m) := by
  have hsorted : d.toJson.SortedAlong podSpecPath := hd.sortedAlong_toJson spec_notMem_headerNames
  rw [← at?_toJson hd, podSpec?_ofNormal]
  rcases Json.present_or_absent (d.toJson.at? podSpecPath) with ⟨t, ht, hnull⟩ | habs
  · obtain ⟨m, hm, hat⟩ := (shape_leads kind).read_at? hsorted h ht hnull
    exact .inr ⟨t, m, ht, hm, by rw [hat, Option.map_some]⟩
  · have hnone : n.at? podSpecPath = none := (shape_leads kind).at?_eq_none hsorted h habs
    exact .inl ⟨by rw [hnone, Option.map_none], habs⟩

/-! ## What injecting does to the raw document -/

/-- The document with the value changed that stands where the pod spec does. -/
def injected (o : List EnvVar) (d : Document) : Document :=
  d.modifyData podSpecPath (PodSpec.inject o)

theorem wellFormed_injected (hd : d.WellFormed) (o : List EnvVar) : (injected o d).WellFormed :=
  hd.modifyData (by decide) fun _ hx => PodSpec.ordered_inject hx o

theorem toJson_injected (o : List EnvVar) (d : Document) :
    (injected o d).toJson = d.toJson.modifyAt (PodSpec.inject o) podSpecPath :=
  Document.toJson_modifyData spec_notMem_headerNames (PodSpec.inject o) d

/-- **Injecting twice is injecting once**, on the raw document. -/
theorem injected_injected (hd : d.WellFormed) (o : List EnvVar) :
    injected o (injected o d) = injected o d := by
  have htwice : injected o (injected o d) =
      d.modifyData podSpecPath (PodSpec.inject o ∘ PodSpec.inject o) :=
    Document.modifyData_modifyData _ _ d
  rw [htwice]
  exact hd.modifyData_congr fun x hx => PodSpec.inject_inject (hd.ordered.at? hx) o

theorem injectEnv_of_podSpec {p : PodSpec} (hw : decode kind d = .ok w) (hp : w.podSpec? = some p)
    (o : List EnvVar) :
    injectEnv kind o d = .ok (d.modifyData podSpecPath (p.mergeEnv o).writeOver) := by
  unfold injectEnv
  simp only [hw, bind, Except.bind, hp]

theorem injectEnv_of_none (hw : decode kind d = .ok w) (hp : w.podSpec? = none)
    (o : List EnvVar) : injectEnv kind o d = .ok d := by
  unfold injectEnv
  simp only [hw, bind, Except.bind, hp]

/-- **Injecting is changing the raw pod spec**, once the document decodes. -/
theorem injectEnv_eq (hd : d.WellFormed) (kind : WorkloadKind) (o : List EnvVar) :
    injectEnv kind o d = (decode kind d).map fun _ => injected o d := by
  cases hw : decode kind d with
  | error e =>
    unfold injectEnv
    rw [hw]
    rfl
  | ok w =>
    obtain ⟨n, hn, rfl⟩ := decode_eq_ok_iff.mp hw
    rcases podSpec?_cases hd hn with ⟨hnone, habs⟩ | ⟨t, m, ht, hm, hsome⟩
    · -- no pod spec: what is there, if anything, is null and stays
      have hsame : injected o d = d.modifyData podSpecPath id :=
        hd.modifyData_congr fun x hx => PodSpec.inject_of_isNull (habs x hx)
      rw [injectEnv_of_none hw hnone, Except.map, hsame, Document.modifyData_id]
    · -- the raw pod spec is the one that was read, so writing over it is injecting
      have hsame : d.modifyData podSpecPath ((PodSpec.ofNormal m).mergeEnv o).writeOver =
          injected o d := by
        refine hd.modifyData_congr fun x hx => ?_
        obtain rfl : t = x := Option.some.inj (ht.symm.trans hx)
        rw [PodSpec.inject_of_read hm]
      rw [injectEnv_of_podSpec hw hsome, Except.map, hsame]

/-- **Decoding what was injected gives the workload with its pod spec merged.** -/
theorem decode_injected (hd : d.WellFormed) (hw : decode kind d = .ok w) (o : List EnvVar) :
    decode kind (injected o d) = .ok (w.modifyPodSpec (PodSpec.mergeEnv o)) := by
  obtain ⟨n, hn, rfl⟩ := decode_eq_ok_iff.mp hw
  rw [decode_eq_ok_iff, toJson_injected]
  have hsorted : d.toJson.SortedAlong podSpecPath := hd.sortedAlong_toJson spec_notMem_headerNames
  rcases podSpec?_cases hd hn with ⟨hnone, habs⟩ | ⟨t, m, ht, hm, hsome⟩
  · -- there is nothing to merge into, and nothing is changed
    have hself : d.toJson.modifyAt (PodSpec.inject o) podSpecPath = d.toJson := by
      refine Json.modifyAt_eq_self hsorted fun x hx => ?_
      have hnull : x.isNull = true := habs x (by rwa [← at?_toJson hd])
      exact PodSpec.inject_of_isNull hnull
    rw [hself, modifyPodSpec_of_none hnone]
    exact ⟨n, hn, rfl⟩
  · obtain ⟨m', hm', hmerged⟩ := PodSpec.read_inject (hd.ordered.at? ht) hm o
    rw [← at?_toJson hd] at ht
    -- the whole reads as before, with what the raw pod spec reads as in its place
    have hread := (shape_leads kind).read_modifyAt hsorted hn ht (PodSpec.isNull_of_read hm)
      (PodSpec.isNull_of_read hm') hm'
    refine ⟨_, hread, ?_⟩
    rw [ofNormal_modifyAt]
    refine modifyPodSpec_congr fun p hp => ?_
    obtain rfl : PodSpec.ofNormal m = p := Option.some.inj (hsome.symm.trans hp)
    exact hmerged

end Workload

/-! ## A job to look at -/

namespace Sample

/-- A raw pod spec with members its shape does not name, nulls, and a stale entry. -/
def rawPodSpec : Json := .object [
  ("containers", .list [.object [
    ("env", .list [
      .object [("name", .text "TOKEN"), ("valueFrom", .object [("fileKeyRef", .text "token")])],
      .object [("name", .text "KUBERNETES_MIN_VERSION"), ("value", .text "v1.20.0")]]),
    ("futureField", .null),
    ("name", .text "migrate")]]),
  ("futurePodField", .text "kept"),
  ("initContainers", .list [.object [("env", .null), ("name", .text "init")]])]

def rawData : Members Json :=
  [("spec", .object [("managedBy", .text "kueue"), ("template", .object [("spec", rawPodSpec)])])]

/-- A job around the raw pod spec. -/
def job : Document where
  types := some ⟨"batch/v1", "Job"⟩
  metadata := [("creationTimestamp", .text "2024-01-31T10:20:30Z"), ("name", .text "migrate")]
  data := rawData

theorem job_fromJson : job.FromJson := ⟨job.toJson, by decide, rfl⟩

end Sample

namespace Workload

variable {d : Document} {kind : WorkloadKind} {w : Workload}

/-! ## The typed workload and the raw document -/

/-- **Injecting into the raw document simulates the typed merge.**  It fails where
    decoding does and with the same error, which is never one of encoding.  Else
    decoding its outcome gives the workload of before with its pod spec merged.
    Nothing that is skipped on the way was due: the raw lists read as the typed
    containers one for one, so there is a raw object for each of them. -/
theorem injectEnv_simulates (hd : d.FromJson) (kind : WorkloadKind) (o : List EnvVar) :
    (∀ e, injectEnv kind o d = .error e ↔ decode kind d = .error e) ∧
    (∀ e, injectEnv kind o d = .error e → ∃ cause, e = .decode kind d.name cause) ∧
    (∀ w, decode kind d = .ok w → ∃ d', injectEnv kind o d = .ok d' ∧
      decode kind d' = .ok (w.modifyPodSpec (PodSpec.mergeEnv o))) ∧
    (∀ w p, decode kind d = .ok w → w.podSpec? = some p →
      ∃ t, (Json.object d.data).at? podSpecPath = some t ∧
        Container.ReadsAll (t.itemsAt "containers") p.containers ∧
        Container.ReadsAll (t.itemsAt "initContainers") (p.initContainers.getD [])) := by
  have hwf := hd.wellFormed
  rw [injectEnv_eq hwf]
  refine ⟨?_, ?_, ?_, ?_⟩
  · intro e
    cases decode kind d <;> simp [Except.map]
  · intro e he
    cases hw : decode kind d with
    | error e' =>
      rw [hw] at he
      cases he
      exact decode_eq_error hw
    | ok w =>
      rw [hw] at he
      cases he
  · intro w hw
    exact ⟨injected o d, by rw [hw]; rfl, decode_injected hwf hw o⟩
  · intro w p hw hp
    obtain ⟨n, hn, rfl⟩ := decode_eq_ok_iff.mp hw
    rcases podSpec?_cases hwf hn with ⟨hnone, -⟩ | ⟨t, m, ht, hm, hsome⟩
    · cases hnone.symm.trans hp
    · obtain rfl : PodSpec.ofNormal m = p := Option.some.inj (hsome.symm.trans hp)
      have hordered : t.Ordered := hwf.ordered.at? ht
      exact ⟨t, ht, PodSpec.readsAll_of_read hordered hm⟩

/-- A variable that is there, one that is new, and the first one again. -/
theorem injectEnv_simulates_job : ∃ w d', decode .job Sample.job = .ok w ∧
    injectEnv .job [.plain "TOKEN" "a", .plain "NEW" "b", .plain "TOKEN" "c"] Sample.job = .ok d' ∧
    decode .job d' = .ok (w.modifyPodSpec
      (PodSpec.mergeEnv [.plain "TOKEN" "a", .plain "NEW" "b", .plain "TOKEN" "c"])) := by
  obtain ⟨d', hd', hw⟩ := (injectEnv_simulates Sample.job_fromJson .job _).2.2.1 _ rfl
  exact ⟨_, d', rfl, hd', hw⟩

end Workload

end WorkloadEnv
