import WorkloadEnv.Proofs.Workload.Injection

/-! # Configuring again

    Overrides with the same names in the same order can be merged any number of
    times, with other values each time: only the last time counts
    (`reconfiguration_absorbed`).  The names of a merged list depend on the names
    that went into it alone, so configuring again adds no entry and moves none.

    The order of the names matters.  Two lists of the same names in different
    orders append what is new in different orders, and the first one stays. -/

namespace WorkloadEnv

open EnvVar (merge merge_merge mergeOptional)

variable {o o' t u : List EnvVar}

/-! ## Names and contents -/

namespace EnvVar

/-- Merging brings in names, whatever is set under them. -/
theorem map_name_merge_congr (ho : o.map name = o'.map name) (ht : t.map name = u.map name) :
    (merge o t).map name = (merge o' u).map name := by
  induction o generalizing o' t u with
  | nil =>
    obtain rfl : o' = [] := by simpa using ho.symm
    exact ht
  | cons e o ih =>
    cases o' with
    | nil => cases ho
    | cons e' o' =>
      obtain ⟨he, ho⟩ := List.cons.inj ho
      have hset : (set e t).map name = (set e' u).map name := by
        rw [map_name_set, map_name_set, he, ht]
      rw [merge_cons, merge_cons]
      exact ih ho hset

/-- Names that were merged before are all there, and each is where it was. -/
theorem map_name_merge_merge (h : o.map name = o'.map name) (t : List EnvVar) :
    (merge o' (merge o t)).map name = (merge o t).map name := by
  rw [merge_merge h]
  exact map_name_merge_congr h.symm rfl

end EnvVar

/-! ## Runs -/

section Runs

variable {α : Type} {act : List EnvVar → α → α}

/-- **The last of a run decides**, where each action hides one of the same names
    before it. -/
theorem foldl_of_absorbs
    (hact : ∀ o o' x, o.map EnvVar.name = o'.map EnvVar.name → act o' (act o x) = act o' x)
    {os : List (List EnvVar)} (hos : ∀ o' ∈ os, o'.map EnvVar.name = o.map EnvVar.name) (x : α) :
    (os ++ [o]).foldl (fun x o => act o x) x = act o x := by
  induction os generalizing x with
  | nil => rfl
  | cons o' os ih =>
    have hrest : ∀ p ∈ os, p.map EnvVar.name = o.map EnvVar.name :=
      fun p hp => hos p (List.mem_cons_of_mem _ hp)
    calc (o' :: os ++ [o]).foldl (fun x o => act o x) x
        = (os ++ [o]).foldl (fun x o => act o x) (act o' x) := rfl
      _ = act o (act o' x) := ih hrest (act o' x)
      _ = act o x := hact o' o x (hos o' List.mem_cons_self)

end Runs

/-- **Merging absorbs every earlier merge of the same names.**  For overrides with the
    same names in the same order, merging one list and then the other is merging
    the other; so is merging one list twice.  Names stay as the first merge left them,
    so nothing is added and nothing moves.  The same holds for every container
    and init container of a pod spec, and for any number of lists in a row. -/
theorem reconfiguration_absorbed (h : o.map EnvVar.name = o'.map EnvVar.name) :
    (∀ t, merge o' (merge o t) = merge o' t) ∧
    (∀ t, merge o (merge o t) = merge o t) ∧
    (∀ t, (merge o' (merge o t)).map EnvVar.name = (merge o t).map EnvVar.name) ∧
    (∀ env, mergeOptional o' (mergeOptional o env) = mergeOptional o' env) ∧
    (∀ p : PodSpec, (p.mergeEnv o).mergeEnv o' = p.mergeEnv o') ∧
    (∀ os : List (List EnvVar), (∀ o₁ ∈ os, o₁.map EnvVar.name = o'.map EnvVar.name) →
      (∀ t, (os ++ [o']).foldl (fun t o => merge o t) t = merge o' t) ∧
      ∀ p, (os ++ [o']).foldl (fun p o => PodSpec.mergeEnv o p) p = p.mergeEnv o') := by
  refine ⟨merge_merge h, merge_merge rfl, EnvVar.map_name_merge_merge h,
    fun env => congrArg some (merge_merge h _), PodSpec.mergeEnv_mergeEnv h, ?_⟩
  intro os hos
  exact ⟨foldl_of_absorbs (fun o o' t h => merge_merge h t) hos,
    foldl_of_absorbs (fun o o' p h => PodSpec.mergeEnv_mergeEnv h p) hos⟩

namespace Sample

/-- Overrides that set one name twice, with contents that depend on the version. -/
def repeated (version : String) : List EnvVar :=
  [.plain "B" version, ⟨"A", none, none⟩, .plain "B" (version ++ "-b")]

end Sample

/-- A container with an entry of its own and an init container without any are
    configured a second time, and a third. -/
theorem reconfiguration_absorbed_repeated :
    ((⟨[⟨some [.plain "A" "0"], []⟩], some [⟨none, []⟩], []⟩ : PodSpec).mergeEnv
        (Sample.repeated "1")).mergeEnv (Sample.repeated "2") =
      ⟨[⟨some [⟨"A", none, none⟩, .plain "B" "2-b"], []⟩],
        some [⟨some [.plain "B" "2-b", ⟨"A", none, none⟩], []⟩], []⟩ ∧
    ([Sample.repeated "1", Sample.repeated "3"] ++ [Sample.repeated "2"]).foldl
        (fun t o => merge o t) [] = [.plain "B" "2-b", ⟨"A", none, none⟩] := by
  have hnames : (Sample.repeated "1").map EnvVar.name = (Sample.repeated "2").map EnvVar.name := rfl
  obtain ⟨-, -, -, -, hpod, hruns⟩ := reconfiguration_absorbed hnames
  refine ⟨(hpod _).trans rfl, ((hruns _ fun o ho => ?_).1 []).trans rfl⟩
  rcases List.mem_pair.mp ho with rfl | rfl <;> rfl

/-- The same names in another order are appended in that order, which stays. -/
example : merge [.plain "B" "2", .plain "A" "2"] (merge [.plain "A" "1", .plain "B" "1"] []) ≠
    merge [.plain "B" "2", .plain "A" "2"] [] := by decide

end WorkloadEnv
