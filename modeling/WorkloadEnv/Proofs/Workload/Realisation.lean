import WorkloadEnv.Proofs.EnvVar.Realisation
import WorkloadEnv.Proofs.Json.Entries
import WorkloadEnv.Proofs.Workload.Injection

/-! # Environments in the documents they are written to

    An environment is realised only over entries that are not more than its
    variables (`EnvVar.realises_writeOver_iff`).  Nothing checks this where an
    environment is written.  It holds because the entries of a raw container are
    as many as the variables that were read from them, and a merge removes none
    of these (`Container.Reads.length_entries_le`).

    So the merged environment of each container and init container is realised
    over the raw entries, in the document that injecting gives
    (`environments_realised`). -/

namespace WorkloadEnv

open EnvVar (merge)

variable {o : List EnvVar} {i : Nat}

/-! ## Containers -/

namespace Container

variable {j : Json} {js : List Json} {c : Container} {cs : List Container}

/-- **A merged environment has a variable for each raw entry.** -/
theorem Reads.length_entries_le (h : Reads j c) (hj : j.Ordered) (o : List EnvVar) :
    (j.itemsAt "env").length ≤ (merge o (c.env.getD [])).length := by
  -- one variable was read from each entry, and a merge takes none of them out
  calc (j.itemsAt "env").length
      = (c.env.getD []).length := (h.entries hj).length_eq
    _ ≤ (merge o (c.env.getD [])).length := EnvVar.length_le_length_merge o _

/-- The raw container `j'` has an environment that is realised over that of `j`. -/
structure Realises (es : List EnvVar) (j j' : Json) : Prop where
  /-- There are no more raw entries than variables. -/
  length_le : (j.itemsAt "env").length ≤ es.length
  entries : ∃ js', j'.get? "env" = some (.list js') ∧ EnvVar.Realises es (j.itemsAt "env") js'

/-- What is written for a container that was read realises its merged environment. -/
theorem Reads.realises (h : Reads j c) (hj : j.Ordered) (o : List EnvVar) :
    Realises (merge o (c.env.getD [])) j ((c.mergeEnv o).writeOver j) := by
  have hlength := h.length_entries_le hj o
  refine ⟨hlength, _, ?_, EnvVar.realises_writeOver_iff.mpr hlength⟩
  obtain ⟨ms, rfl⟩ := h.object
  exact Members.get?_put_self ms

/-- Each raw container is written to from the typed one of its place. -/
theorem getElem?_writeEach (hc : cs[i]? = some c) (hj : js[i]? = some j) :
    (writeEach cs js)[i]? = some (c.writeOver j) := by
  induction cs generalizing js i with
  | nil => cases hc
  | cons c' cs ih =>
    cases js with
    | nil => cases hj
    | cons j' js =>
      cases i with
      | zero =>
        cases hc
        cases hj
        rfl
      | succ i => exact ih hc hj

theorem itemsAt_modifyAt_writeList (name : String) (cs : List Container) (t : Json) :
    (t.modifyAt (writeList cs) [name]).itemsAt name = writeEach cs (t.itemsAt name) := by
  have hnil : writeEach cs [] = [] := by cases cs <;> rfl
  rw [Json.itemsAt, Json.itemsAt, Json.get?_modifyAt_self]
  cases t.get? name with
  | none => exact hnil.symm
  | some x =>
    cases x with
    | list js => rfl
    | _ => exact hnil.symm

end Container

/-! ## Pod specs -/

namespace PodSpec

variable {t t' n : Json} {name : String} {cs : List Container}

/-- Each of the typed containers was read from the raw one of its place, over which its
    merged environment is realised. -/
def RealisesAt (name : String) (o : List EnvVar) (cs : List Container) (t t' : Json) : Prop :=
  ∀ (i : Nat) (c : Container), cs[i]? = some c → ∃ j j', (t.itemsAt name)[i]? = some j ∧
    (t'.itemsAt name)[i]? = some j' ∧ Container.Reads j c ∧
    Container.Realises (merge o (c.env.getD [])) j j'

/-- Writing the merged containers of one list realises all of their environments. -/
theorem realisesAt_of_readsAll (h : Container.ReadsAll (t.itemsAt name) cs) (ht : t.Ordered)
    (hwritten : t'.itemsAt name =
      Container.writeEach (cs.map (Container.mergeEnv o)) (t.itemsAt name)) :
    RealisesAt name o cs t t' := by
  intro i c hc
  -- there is a raw container for the typed one
  have hrel := Json.forall₂_iff_rel_getElem?.mp h i
  rw [hc] at hrel
  obtain ⟨j, hj, hreads⟩ := rel_some_right_iff.mp hrel
  have hordered : j.Ordered := ht.itemsAt j (List.mem_of_getElem? hj)
  have hmerged : (cs.map (Container.mergeEnv o))[i]? = some (c.mergeEnv o) := by
    rw [List.getElem?_map, hc, Option.map_some]
  refine ⟨j, _, hj, ?_, hreads, hreads.realises hordered o⟩
  rw [hwritten]
  exact Container.getElem?_writeEach hmerged hj

/-- **Both lists of a pod spec are realised** when it is injected into. -/
theorem realisesAt_inject (ht : t.Ordered) (h : Kubernetes.podSpec.read t = .ok n)
    (o : List EnvVar) :
    RealisesAt "containers" o (ofNormal n).containers t (inject o t) ∧
      RealisesAt "initContainers" o ((ofNormal n).initContainers.getD []) t (inject o t) := by
  obtain ⟨hcontainers, hinit⟩ := readsAll_of_read ht h
  rw [inject_of_read h, writeOver_eq, initContainers_mergeEnv]
  constructor
  · apply realisesAt_of_readsAll hcontainers ht
    -- the init containers are written beside the containers
    rw [Json.itemsAt_modifyAt_ne (by decide), Container.itemsAt_modifyAt_writeList]
    rfl
  · apply realisesAt_of_readsAll hinit ht
    rw [Container.itemsAt_modifyAt_writeList, Json.itemsAt_modifyAt_ne (by decide)]

end PodSpec

/-! ## Documents -/

namespace Workload

variable {d : Document} {kind : WorkloadKind} {w : Workload} {p : PodSpec}

/-- A typed pod spec was read from the raw one of the document. -/
theorem exists_read_of_podSpec? (hd : d.WellFormed) (hw : decode kind d = .ok w)
    (hp : w.podSpec? = some p) :
    ∃ t m, (Json.object d.data).at? podSpecPath = some t ∧ Kubernetes.podSpec.read t = .ok m ∧
      PodSpec.ofNormal m = p := by
  obtain ⟨n, hn, rfl⟩ := decode_eq_ok_iff.mp hw
  rcases podSpec?_cases hd hn with ⟨hnone, -⟩ | ⟨t, m, ht, hm, hsome⟩
  · cases hnone.symm.trans hp
  · exact ⟨t, m, ht, hm, Option.some.inj (hsome.symm.trans hp)⟩

/-- Injecting succeeds on a document that decodes, and realises the merged environment of
    each container and init container in it. -/
theorem injectEnv_realises (hd : d.FromJson) (hw : decode kind d = .ok w)
    (hp : w.podSpec? = some p) (o : List EnvVar) :
    ∃ d' t t', injectEnv kind o d = .ok d' ∧
      (Json.object d.data).at? podSpecPath = some t ∧
      (Json.object d'.data).at? podSpecPath = some t' ∧
      PodSpec.RealisesAt "containers" o p.containers t t' ∧
      PodSpec.RealisesAt "initContainers" o (p.initContainers.getD []) t t' := by
  have hwf := hd.wellFormed
  obtain ⟨t, m, ht, hm, rfl⟩ := exists_read_of_podSpec? hwf hw hp
  have hinject : injectEnv kind o d = .ok (injected o d) := by
    rw [injectEnv_eq hwf, hw]
    rfl
  have hat : (Json.object (injected o d).data).at? podSpecPath = some (PodSpec.inject o t) := by
    show ((Json.object d.data).modifyAt (PodSpec.inject o) podSpecPath).at? podSpecPath = _
    rw [Json.at?_modifyAt_self, ht, Option.map_some]
  have hordered : t.Ordered := hwf.ordered.at? ht
  exact ⟨injected o d, t, PodSpec.inject o t, hinject, ht, hat,
    PodSpec.realisesAt_inject hordered hm o⟩

/-- **Any environment is realised over any entries that are not more than its variables,
    and wherever one is written the entries are not more.**  Each entry then reads
    as the variable of its place; it stays as it is exactly if it did so before, and
    is the written form of the variable otherwise.  More entries than variables would
    stay behind the last one.  But the entries of a container that was read are never
    more than the variables of its merged environment, so injecting realises that
    environment in each container and init container. -/
theorem environments_realised :
    (∀ (es : List EnvVar) (js : List Json), EnvVar.scan 0 es js = EnvVar.writeOver es js) ∧
    (∀ (es : List EnvVar) (js : List Json),
      EnvVar.Realises es js (EnvVar.writeOver es js) ↔ js.length ≤ es.length) ∧
    (∀ (j : Json) (c : Container) (o : List EnvVar), j.Ordered → Container.Reads j c →
      (j.itemsAt "env").length ≤ (merge o (c.env.getD [])).length) ∧
    (∀ (d : Document) (kind : WorkloadKind) (w : Workload) (p : PodSpec) (o : List EnvVar),
      d.FromJson → decode kind d = .ok w → w.podSpec? = some p →
      ∃ d' t t', injectEnv kind o d = .ok d' ∧
        (Json.object d.data).at? podSpecPath = some t ∧
        (Json.object d'.data).at? podSpecPath = some t' ∧
        PodSpec.RealisesAt "containers" o p.containers t t' ∧
        PodSpec.RealisesAt "initContainers" o (p.initContainers.getD []) t t') := by
  refine ⟨EnvVar.scan_eq_writeOver, ?_, ?_, ?_⟩
  · intro es js
    exact EnvVar.realises_writeOver_iff
  · intro j c o hj h
    exact h.length_entries_le hj o
  · intro d kind w p o hd hw hp
    exact injectEnv_realises hd hw hp o

end Workload

namespace Sample

/-- Entries of which the first reads as no variable. -/
def looseEntries : List Json := [
  .null,
  .object [("futureField", .text "kept"), ("name", .text "A"), ("value", .text "1")],
  .object [("name", .text "KEY"), ("value", .text "old")]]

/-- An environment that did not come from them. -/
def foreignEnv : List EnvVar := [
  ⟨"TOKEN", none, some ⟨none, none, none, some ⟨"token", "vault", some true⟩⟩⟩,
  .plain "A" "1", .plain "KEY" "new", .plain "B" "2"]

end Sample

namespace Workload

/-- Loose entries, and a container of a job with a variable that is there and one that
    is new. -/
theorem environments_realised_job :
    EnvVar.Realises Sample.foreignEnv Sample.looseEntries [
      .object [("name", .text "TOKEN"), ("valueFrom", .object [("secretKeyRef",
        .object [("key", .text "token"), ("name", .text "vault"), ("optional", .bool true)])])],
      .object [("futureField", .text "kept"), ("name", .text "A"), ("value", .text "1")],
      .object [("name", .text "KEY"), ("value", .text "new")],
      .object [("name", .text "B"), ("value", .text "2")]] ∧
    ∃ d' t' j' js', injectEnv .job [.plain "TOKEN" "a", .plain "NEW" "b"] Sample.job = .ok d' ∧
      (Json.object d'.data).at? podSpecPath = some t' ∧
      (t'.itemsAt "containers")[0]? = some j' ∧ j'.get? "env" = some (.list js') ∧
      EnvVar.Realises
        [.plain "TOKEN" "a", .plain "KUBERNETES_MIN_VERSION" "v1.20.0", .plain "NEW" "b"]
        [.object [("name", .text "TOKEN"), ("valueFrom", .object [("fileKeyRef", .text "token")])],
          .object [("name", .text "KUBERNETES_MIN_VERSION"), ("value", .text "v1.20.0")]] js' := by
  obtain ⟨-, hrealises, -, hinject⟩ := environments_realised
  refine ⟨(hrealises Sample.foreignEnv Sample.looseEntries).mpr (by decide), ?_⟩
  obtain ⟨d', t, t', hd', ht, ht', hcontainers, -⟩ := hinject Sample.job .job _ _
    [.plain "TOKEN" "a", .plain "NEW" "b"] Sample.job_fromJson rfl rfl
  cases ht
  obtain ⟨j, j', hj, hj', -, hreal⟩ := hcontainers 0 _ rfl
  cases hj
  obtain ⟨js', hjs', henv⟩ := hreal.entries
  exact ⟨d', t', j', js', hd', ht', hj', hjs', henv⟩

end Workload

end WorkloadEnv
