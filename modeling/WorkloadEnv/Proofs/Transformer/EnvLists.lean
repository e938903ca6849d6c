import WorkloadEnv.Proofs.Transformer.Outcome
import WorkloadEnv.Proofs.Workload.SingleOverride

/-! # What the transform does to the environments

    On the raw entries of a container, setting the version replaces the first
    entry of the variable or adds one at the end, and keeps all other entries as
    they are (`SetPlain`).  The typed reading of the entries decides which one is
    the first of its name and whether it may stay, and nothing else.  Every
    container and init container is changed in this way
    (`transformer_sets_variable`). -/

namespace WorkloadEnv

open Kubernetes

/-! ## A plain variable on raw entries -/

namespace EnvVar

/-- The entries `js'` are the entries `js` with a plain variable set. -/
structure SetPlain (name value : String) (js js' : List Json) : Prop where
  /-- The first entry of the name is replaced, and nothing else. -/
  replaced : ∀ k j, js.findIdx? (hasName name) = some k → js[k]? = some j →
    read j ≠ .ok (plain name value) →
      js' = js.set k (.object [("name", .text name), ("value", .text value)])
  /-- An entry that reads as the variable already stays as it is. -/
  same : ∀ k j, js.findIdx? (hasName name) = some k → js[k]? = some j →
    read j = .ok (plain name value) → js' = js
  /-- Without an entry of the name there is one more, at the end. -/
  appended : js.findIdx? (hasName name) = none →
    js' = js ++ [.object [("name", .text name), ("value", .text value)]]
  /-- All other entries are kept at their positions. -/
  kept : ∀ i j, js.findIdx? (hasName name) ≠ some i → js[i]? = some j → js'[i]? = some j
  /-- Looking the name up gives the value, and no other place it is taken from. -/
  lookup : ∃ k j, js'.findIdx? (hasName name) = some k ∧ js'[k]? = some j ∧
    read j = .ok (plain name value)
  /-- An entry of the name that says something else was there before, and stays behind
      the one that is found. -/
  stale : ∀ i j, js'[i]? = some j → hasName name j = true → read j ≠ .ok (plain name value) →
    js[i]? = some j ∧ ∃ k < i, js'.findIdx? (hasName name) = some k

theorem setPlain_setEntry (name value : String) (js : List Json) :
    SetPlain name value js (setEntry (plain name value) js) := by
  have hfirst := findIdx_setEntry (plain name value) js
  obtain ⟨found, hat, hnamed, hread⟩ := getElem?_setEntry_self (plain name value) js
  -- the first entry of the name is the one that was set
  have hidx : (setEntry (plain name value) js).findIdx? (hasName name) =
      some (js.findIdx (hasName name)) := by
    rw [List.findIdx?_eq_some_iff_findIdx_eq]
    exact ⟨(List.getElem?_eq_some_iff.mp hat).1, hfirst⟩
  have hkept : ∀ i, js.findIdx? (hasName name) ≠ some i → i < js.length →
      i ≠ js.findIdx (hasName name) := by
    intro i hi hlt heq
    exact hi (List.findIdx?_eq_some_iff_findIdx_eq.mpr ⟨hlt, heq.symm⟩)
  refine ⟨?_, ?_, ?_, ?_, ⟨_, found, hidx, hat, hread⟩, ?_⟩
  · intro k j hk hj hne
    rw [setEntry_of_findIdx? hk hj, if_neg fun h => hne (isReadFrom_iff.mp h)]
    rfl
  · intro k j hk hj heq
    obtain ⟨hlt, rfl⟩ := List.getElem?_eq_some_iff.mp hj
    rw [setEntry_of_findIdx? hk hj, if_pos (isReadFrom_iff.mpr heq), List.set_getElem_self]
  · intro hnone
    have hnone' : js.findIdx? (hasName (plain name value).name) = none := hnone
    rw [setEntry, hnone']
    rfl
  · intro i j hi hj
    have hlt : i < js.length := (List.getElem?_eq_some_iff.mp hj).1
    rw [getElem?_setEntry_ne (hkept i hi hlt)]
    exact hj
  · intro i j hj hname hne
    -- it is not the entry that was set, and no entry of the name comes before that one
    have hi : i ≠ js.findIdx (hasName name) := by
      rintro rfl
      obtain rfl : found = j := Option.some.inj (hat.symm.trans hj)
      exact hne hread
    rw [getElem?_setEntry_ne hi] at hj
    refine ⟨hj, _, ?_, hidx⟩
    obtain ⟨hlt, rfl⟩ := List.getElem?_eq_some_iff.mp hj
    have hle : ¬i < js.findIdx (hasName name) := fun h => by
      simpa [hname] using List.not_of_lt_findIdx h
    omega

end EnvVar

/-! ## Pod specs -/

namespace PodSpec

variable {t n : Json} {e : EnvVar} {name : String}

/-- The containers of both lists are changed each for itself. -/
theorem map_get?_inject (ht : t.Ordered) (h : podSpec.read t = .ok n) (he : e.name ≠ "")
    (hname : name ∈ listNames) :
    ((inject [e] t).itemsAt name).map (Json.get? "env") =
      (t.itemsAt name).map fun c => some (Json.list (EnvVar.setEntry e (c.itemsAt "env"))) := by
  obtain ⟨hcontainers, hinit⟩ := readsAll_of_read ht h
  have hobject : ∀ c ∈ t.itemsAt name, ∃ ms, c = .object ms := by
    rcases List.mem_cons.mp hname with rfl | hname
    · exact hcontainers.object
    · obtain rfl := List.mem_singleton.mp hname
      exact hinit.object
  rw [inject_eq_eachContainer ht h he, itemsAt_eachContainer _ _ hname, List.map_map]
  refine List.map_congr_left fun c hc => ?_
  obtain ⟨ms, rfl⟩ := hobject c hc
  exact Members.get?_put_self ms

end PodSpec

/-! ## Documents -/

namespace MinVersionTransform

open Workload

variable {d d' : Document} {kind : WorkloadKind} {w : Workload} {p : PodSpec} {v : String}

/-- **Setting a version sets the variable in every raw environment.**  Where a
    workload has a pod spec, each container and init container of the outcome has
    the entries of before with the variable set among them, and an environment
    that was absent or null counts as one without entries. -/
theorem transformer_sets_variable (hd : d.FromJson) (hv : v ≠ "")
    (h : (ofVersion v).transformer d = (d', none))
    (hkind : WorkloadKind.ofDocument? d = some kind)
    (hw : decode kind d = .ok w) (hp : w.podSpec? = some p) :
    ∃ t t' : Json, d.toJson.at? podSpecPath = some t ∧ d'.toJson.at? podSpecPath = some t' ∧
      ∀ name ∈ ["containers", "initContainers"],
        (t'.itemsAt name).length = (t.itemsAt name).length ∧
        ∀ (i : Nat) (c c' : Json),
          (t.itemsAt name)[i]? = some c → (t'.itemsAt name)[i]? = some c' →
          ∃ js', c'.get? "env" = some (.list js') ∧
            EnvVar.SetPlain minVersionVariable v (c.itemsAt "env") js' := by
  have hwf := hd.wellFormed
  have hd' : d' = outcome v d := by
    rw [transformer_eq_iff, apply_of_kind hwf hv hkind, hw] at h
    exact (Except.ok.inj h).symm
  obtain ⟨n, hn, rfl⟩ := decode_eq_ok_iff.mp hw
  rcases podSpec?_cases hwf hn with ⟨hnone, -⟩ | ⟨t, m, ht, hm, -⟩
  · cases hnone.symm.trans hp
  · have hordered : t.Ordered := hwf.ordered.at? ht
    rw [← at?_toJson hwf] at ht
    refine ⟨t, PodSpec.inject [.plain minVersionVariable v] t, ht, ?_, fun name hname => ?_⟩
    · rw [hd', at?_outcome hwf, ht, Option.map_some]
    · have hnamed : (EnvVar.plain minVersionVariable v).name ≠ "" :=
        show minVersionVariable ≠ "" by decide
      have hmap := PodSpec.map_get?_inject hordered hm hnamed hname
      refine ⟨by simpa using congrArg List.length hmap, fun i c c' hc hc' => ?_⟩
      -- the equation of the lists, at one position
      have hat := congrArg (fun l => l[i]?) hmap
      simp only [List.getElem?_map, hc, hc', Option.map_some, Option.some.injEq] at hat
      exact ⟨_, hat, EnvVar.setPlain_setEntry _ _ _⟩

/-- A container with a stale entry behind another one, and an init container
    whose environment is null. -/
theorem transformer_sets_variable_job : ∃ d' t' c c' js js',
    (ofVersion "v1.25.0").transformer Sample.job = (d', none) ∧
    d'.toJson.at? podSpecPath = some t' ∧
    t'.itemsAt "containers" = [c] ∧ c.get? "env" = some (.list js) ∧
    EnvVar.SetPlain minVersionVariable "v1.25.0" [
      .object [("name", .text "TOKEN"), ("valueFrom", .object [("fileKeyRef", .text "token")])],
      .object [("name", .text "KUBERNETES_MIN_VERSION"), ("value", .text "v1.20.0")]] js ∧
    t'.itemsAt "initContainers" = [c'] ∧ c'.get? "env" = some (.list js') ∧
    EnvVar.SetPlain minVersionVariable "v1.25.0" [] js' := by
  obtain ⟨t, t', ht, ht', h⟩ := transformer_sets_variable (v := "v1.25.0") Sample.job_fromJson
    (by decide) rfl rfl rfl rfl
  cases ht
  cases ht'
  obtain ⟨js, hjs, hset⟩ := (h "containers" (by decide)).2 0 _ _ rfl rfl
  obtain ⟨js', hjs', hset'⟩ := (h "initContainers" (by decide)).2 0 _ _ rfl rfl
  exact ⟨_, _, _, _, js, js', rfl, rfl, rfl, hjs, hset, rfl, hjs', hset'⟩

end MinVersionTransform

end WorkloadEnv
