import WorkloadEnv.Proofs.Transformer.Outcome

/-! # What the transform leaves alone

    With the creation time and the environments of the containers left out
    (`Json.frame`), a document is encoded as the same value before and after the
    transform: nothing that the typed reading passes over, fills in or writes in
    another way finds its way back.  Where nothing is to be done, or something
    fails, not even those parts change.  And the pod spec that comes out depends
    on the pod spec that went in and on nothing around it. -/

namespace WorkloadEnv

variable {o : List EnvVar} {t j : Json}

/-! ## Without environments -/

namespace Json

/-- A pod spec without the environments of its containers and init containers. -/
def withoutEnv (t : Json) : Json :=
  (t.modifyAt (mapItems (eraseMember "env")) ["containers"]).modifyAt
    (mapItems (eraseMember "env")) ["initContainers"]

/-- A document without the parts that the transform may change. -/
def frame (j : Json) : Json :=
  (j.modifyAt (eraseMember "creationTimestamp") ["metadata"]).modifyAt withoutEnv
    Workload.podSpecPath

theorem eraseMember_eraseMember (name : String) (j : Json) :
    eraseMember name (eraseMember name j) = eraseMember name j := by
  cases j with
  | object ms => exact congrArg object (Members.erase_erase_self ms)
  | _ => rfl

/-- The frame does not see a change of the environments, nor of the creation time. -/
theorem frame_modifyAt {f : Json → Json} (h : withoutEnv ∘ f = withoutEnv) (j : Json) :
    ((j.modifyAt f Workload.podSpecPath).modifyAt (eraseMember "creationTimestamp")
      ["metadata"]).frame = j.frame := by
  have htwice : eraseMember "creationTimestamp" ∘ eraseMember "creationTimestamp" =
      eraseMember "creationTimestamp" := funext (eraseMember_eraseMember _)
  have hcomm : (j.modifyAt f Workload.podSpecPath).modifyAt (eraseMember "creationTimestamp")
      ["metadata"] = (j.modifyAt (eraseMember "creationTimestamp") ["metadata"]).modifyAt f
        Workload.podSpecPath := modifyAt_comm (by decide)
  rw [frame, frame, modifyAt_modifyAt_self, htwice, hcomm, modifyAt_modifyAt_self, h]

end Json

namespace Container

/-- Writing goes into the environment and nowhere else. -/
theorem eraseMember_writeOver (c : Container) (j : Json) :
    (c.writeOver j).eraseMember "env" = j.eraseMember "env" := by
  obtain ⟨env, others⟩ := c
  cases j with
  | object ms =>
    cases env with
    | none => rfl
    | some es => exact congrArg Json.object (Members.erase_put_self ms)
  | _ => rfl

theorem map_eraseMember_writeEach (cs : List Container) (js : List Json) :
    (writeEach cs js).map (Json.eraseMember "env") = js.map (Json.eraseMember "env") := by
  induction cs generalizing js with
  | nil => rfl
  | cons c cs ih =>
    cases js with
    | nil => rfl
    | cons j js => rw [writeEach, List.map_cons, List.map_cons, eraseMember_writeOver, ih]

theorem mapItems_writeList (cs : List Container) (j : Json) :
    (writeList cs j).mapItems (Json.eraseMember "env") = j.mapItems (Json.eraseMember "env") := by
  cases j with
  | list js => exact congrArg Json.list (map_eraseMember_writeEach cs js)
  | _ => rfl

end Container

namespace PodSpec

theorem withoutEnv_writeOver (p : PodSpec) (t : Json) :
    (p.writeOver t).withoutEnv = t.withoutEnv := by
  have h : ∀ cs, Json.mapItems (Json.eraseMember "env") ∘ Container.writeList cs =
      Json.mapItems (Json.eraseMember "env") := fun cs => funext (Container.mapItems_writeList cs)
  rw [writeOver_eq, Json.withoutEnv, Json.withoutEnv]
  -- each list is written and then left without environments, next to the other one
  rw [Json.modifyAt_comm (by decide), Json.modifyAt_modifyAt_self, h,
    Json.modifyAt_comm (by decide), Json.modifyAt_modifyAt_self, h]

theorem withoutEnv_inject (o : List EnvVar) (t : Json) :
    (inject o t).withoutEnv = t.withoutEnv := by
  unfold inject
  split
  · next p _ => exact withoutEnv_writeOver (p.mergeEnv o) t
  · rfl

end PodSpec

/-! ## Documents -/

namespace MinVersionTransform

open Workload

variable {d : Document}

theorem frame_outcome (hd : d.WellFormed) (v : String) :
    (outcome v d).toJson.frame = d.toJson.frame := by
  rw [toJson_outcome hd]
  exact Json.frame_modifyAt (funext (PodSpec.withoutEnv_inject _)) d.toJson

/-- On failure, and where there is nothing to do, the document stays as it is. -/
theorem transformer_eq_self {v : String} (h : v = "" ∨ WorkloadKind.ofDocument? d = none ∨
    ((ofVersion v).transformer d).2 ≠ none) : ((ofVersion v).transformer d).1 = d := by
  have hidle : v = "" ∨ WorkloadKind.ofDocument? d = none →
      ((ofVersion v).transformer d).1 = d := fun hidle => by
    rw [transformer, apply_of_idle hidle]
  rcases h with hv | hkind | herror
  · exact hidle (.inl hv)
  · exact hidle (.inr hkind)
  · unfold transformer at herror ⊢
    cases happly : (ofVersion v).apply d with
    | ok d' =>
      rw [happly] at herror
      exact absurd rfl herror
    | error e => rfl

/-- The pod spec of a workload after the transform, from the one before. -/
theorem at?_transformer {d' : Document} {v : String} (hd : d.WellFormed)
    (hkind : (WorkloadKind.ofDocument? d).isSome)
    (h : (ofVersion v).transformer d = (d', none)) :
    d'.toJson.at? podSpecPath = (d.toJson.at? podSpecPath).map
      (if v = "" then id else PodSpec.inject [.plain minVersionVariable v]) := by
  rcases apply_cases hd (transformer_eq_iff.mp h) with ⟨hv | hnone, rfl⟩ | ⟨hv, -, rfl⟩
  · rw [if_pos hv, Option.map_id]
    rfl
  · rw [hnone] at hkind
    cases hkind
  · rw [if_neg hv]
    exact at?_outcome hd v

/-- **The frame of the transform.**  Up to the creation time and the environments, the
    encoded document is the same before and after, whatever the outcome.  Without
    a version, without a workload and on failure the document itself is.  Two
    workloads with the same raw pod spec end with the same one. -/
theorem transformer_frame (hd : d.FromJson) (v : String) :
    ((ofVersion v).transformer d).1.toJson.frame = d.toJson.frame ∧
    (v = "" ∨ WorkloadKind.ofDocument? d = none ∨ ((ofVersion v).transformer d).2 ≠ none →
      ((ofVersion v).transformer d).1 = d) ∧
    (∀ e d' e', e.FromJson → (WorkloadKind.ofDocument? d).isSome →
      (WorkloadKind.ofDocument? e).isSome → (ofVersion v).transformer d = (d', none) →
      (ofVersion v).transformer e = (e', none) →
      d.toJson.at? podSpecPath = e.toJson.at? podSpecPath →
      d'.toJson.at? podSpecPath = e'.toJson.at? podSpecPath) := by
  refine ⟨?_, transformer_eq_self, ?_⟩
  · cases h : (ofVersion v).apply d with
    | error e => rw [transformer, h]
    | ok d' =>
      rw [transformer, h]
      rcases apply_cases hd.wellFormed h with ⟨-, rfl⟩ | ⟨-, -, rfl⟩
      · rfl
      · exact frame_outcome hd.wellFormed v
  · intro e d' e' he hkind hkind' hd' he' hsame
    rw [at?_transformer hd.wellFormed hkind hd', at?_transformer he.wellFormed hkind' he', hsame]

/-- A daemon set around the pod spec of the job, with other metadata. -/
def sampleDaemonSet : Document where
  types := some ⟨"apps/v1", "DaemonSet"⟩
  metadata := [("name", .text "agent")]
  data := [("spec", .object [("selector", .object []),
    ("template", .object [("metadata", .null), ("spec", Sample.rawPodSpec)])])]

/-- The two workloads keep their frames, and end with one pod spec. -/
theorem transformer_frame_job : ∃ d' e',
    (ofVersion "v1.25.0").transformer Sample.job = (d', none) ∧
    (ofVersion "v1.25.0").transformer sampleDaemonSet = (e', none) ∧
    d'.toJson.frame = Sample.job.toJson.frame ∧
    d'.toJson.at? podSpecPath = e'.toJson.at? podSpecPath := by
  have hframe := transformer_frame Sample.job_fromJson "v1.25.0"
  have hother : sampleDaemonSet.FromJson := ⟨sampleDaemonSet.toJson, by decide, rfl⟩
  exact ⟨_, _, rfl, rfl, hframe.1, hframe.2.2 _ _ _ hother rfl rfl rfl rfl rfl⟩

end MinVersionTransform

end WorkloadEnv
