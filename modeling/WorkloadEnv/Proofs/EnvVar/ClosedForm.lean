import WorkloadEnv.Proofs.EnvVar.Merge
import Mathlib.Data.Finset.Card
import Mathlib.Data.Finset.Dedup
import Mathlib.Data.Finset.SDiff

/-! # What a merge comes to

    Merging sets one override after the other, and each sees what the ones before
    it did.  What comes of it can be said without that order: the first entry of
    a name is replaced by the last override of the name, and the names that are
    new follow in the order in which the overrides bring them up, each once and
    with its last override (`merge_closedForm`).

    The proof goes along the target and not along the overrides.  Its first
    entry takes the last override of its name and uses up all of them, so what
    is left are the overrides of other names and the rest of the target
    (`merge_cons_target`). -/

namespace WorkloadEnv.EnvVar

variable {e a : EnvVar} {o t : List EnvVar} {n m : String}

/-! ## The last of a name -/

/-- The last variable of that name. -/
def last? (n : String) (es : List EnvVar) : Option EnvVar :=
  (es.filter fun e => e.name = n).getLast?

/-- The variables of all other names. -/
def without (n : String) (es : List EnvVar) : List EnvVar := es.filter fun e => e.name ≠ n

theorem last?_cons :
    last? n (e :: o) = if e.name = n then some ((last? n o).getD e) else last? n o := by
  unfold last?
  rw [List.filter_cons]
  by_cases h : e.name = n
  · simp [h, List.getLast?_cons]
  · simp [h]

theorem last?_isSome : (last? n o).isSome ↔ n ∈ o.map name := by
  unfold last?
  rw [List.getLast?_isSome, ne_eq, List.filter_eq_nil_iff]
  simp

/-- Overrides that are left out do not matter where none of them has the name. -/
theorem last?_filter {p : EnvVar → Bool} (h : ∀ e ∈ o, e.name = n → p e = true) :
    last? n (o.filter p) = last? n o := by
  unfold last?
  rw [List.filter_filter]
  congr 1
  refine List.filter_congr fun e he => ?_
  by_cases hn : e.name = n
  · simp [hn, h e he hn]
  · simp [hn]

theorem last?_without_ne (h : n ≠ m) : last? n (without m o) = last? n o :=
  last?_filter fun e _ he => by simpa [he] using h

theorem last?_without_self : last? n (without n o) = none := by
  have hnot : ¬(last? n (without n o)).isSome := by
    rw [last?_isSome, without]
    simp
  simpa using hnot

theorem without_cons :
    without n (e :: o) = if e.name = n then without n o else e :: without n o := by
  unfold without
  rw [List.filter_cons]
  by_cases h : e.name = n <;> simp [h]

theorem map_name_without : (without n o).map name = (o.map name).filter fun m => m ≠ n := by
  unfold without
  rw [List.filter_map]
  rfl

/-! ## Along the target -/

/-- **The first entry takes the last override of its name**, and the overrides of
    other names are merged into what follows it. -/
theorem merge_cons_target (o : List EnvVar) (a : EnvVar) (t : List EnvVar) :
    merge o (a :: t) = (last? a.name o).getD a :: merge (without a.name o) t := by
  induction o generalizing a t with
  | nil => rfl
  | cons e o ih =>
    rw [merge_cons, set_cons]
    by_cases h : a.name = e.name
    · -- the override is now the first entry, and is itself replaced by a later one
      rw [if_pos h, ih, last?_cons, if_pos h.symm, without_cons, if_pos h.symm, h]
      rfl
    · have hne : ¬e.name = a.name := fun h' => h h'.symm
      rw [if_neg h, ih, last?_cons, if_neg hne, without_cons, if_neg hne, merge_cons]

/-- The target with every first entry of a name replaced by the last override of
    that name, where there is one. -/
def replaced (o t : List EnvVar) : List EnvVar :=
  t.mapIdx fun i a => if a.name ∈ (t.take i).map name then a else (last? a.name o).getD a

theorem replaced_cons :
    replaced o (a :: t) = (last? a.name o).getD a :: replaced (without a.name o) t := by
  unfold replaced
  rw [List.mapIdx_cons]
  congr 1
  refine List.mapIdx_eq_mapIdx_iff.mpr fun i hi => ?_
  generalize t[i] = b
  rw [List.take_succ_cons, List.map_cons]
  by_cases hb : b.name ∈ (t.take i).map name
  · rw [if_pos (List.mem_cons_of_mem _ hb), if_pos hb]
  · rw [if_neg hb]
    by_cases ha : b.name = a.name
    · -- a second entry of the name of the first: its overrides are used up
      rw [if_pos (ha ▸ List.mem_cons_self), ha, last?_without_self]
      rfl
    · rw [if_neg fun h => (List.mem_cons.mp h).elim ha hb, last?_without_ne ha]

theorem length_replaced (o t : List EnvVar) : (replaced o t).length = t.length := by
  rw [replaced, List.length_mapIdx]

/-- What is left for the end are the overrides whose names are not in the target. -/
theorem merge_eq_replaced_append (o t : List EnvVar) :
    merge o t = replaced o t ++ merge (o.filter fun e => e.name ∉ t.map name) [] := by
  induction t generalizing o with
  | nil => simp [replaced]
  | cons a t ih =>
    have hleft : (without a.name o).filter (fun e => e.name ∉ t.map name) =
        o.filter fun e => e.name ∉ (a :: t).map name := by
      rw [without, List.filter_filter]
      refine List.filter_congr fun e _ => ?_
      simp [Bool.and_comm]
    rw [merge_cons_target, ih, hleft, replaced_cons, List.cons_append]

/-! ## New names -/

/-- The names that the overrides bring in, in the order in which they first occur. -/
def newNames (o t : List EnvVar) : List String :=
  ((o.map name).filter fun n => n ∉ t.map name).eraseDups

/-- The last override of each name that is new. -/
def added (o t : List EnvVar) : List EnvVar := (newNames o t).filterMap fun n => last? n o

/-- Into an empty list every name is brought in once, with its last override. -/
theorem merge_nil_target (o : List EnvVar) :
    merge o [] = (o.map name).eraseDups.filterMap fun n => last? n o := by
  -- the first override takes all others of its name with it, so the rest is shorter
  induction h : o.length using Nat.strong_induction_on generalizing o with
  | _ k ih =>
    cases o with
    | nil => rfl
    | cons e o =>
      have hshorter : (without e.name o).length < k := by
        have hle : (without e.name o).length ≤ o.length := List.length_filter_le _ o
        rw [List.length_cons] at h
        omega
      have hrest : ∀ n ∈ ((without e.name o).map name).eraseDups,
          last? n (without e.name o) = last? n (e :: o) := by
        intro n hn
        rw [List.mem_eraseDups, map_name_without, List.mem_filter] at hn
        have hne : n ≠ e.name := by simpa using hn.2
        rw [last?_without_ne hne, last?_cons, if_neg fun h' => hne h'.symm]
      have hnames : (o.map name).filter (fun n => !n == e.name) = (without e.name o).map name := by
        rw [map_name_without]
        exact List.filter_congr fun n _ => by simp [beq_eq_decide]
      have hhead : last? e.name (e :: o) = some ((last? e.name o).getD e) := by
        rw [last?_cons, if_pos rfl]
      calc merge (e :: o) [] = merge o [e] := rfl
        _ = (last? e.name o).getD e :: merge (without e.name o) [] := merge_cons_target o e []
        _ = (last? e.name o).getD e ::
            ((without e.name o).map name).eraseDups.filterMap fun n => last? n (e :: o) := by
          rw [ih _ hshorter _ rfl, List.filterMap_congr hrest]
        _ = ((e :: o).map name).eraseDups.filterMap fun n => last? n (e :: o) := by
          rw [List.map_cons, List.eraseDups_cons, hnames, List.filterMap_cons, hhead]

theorem merge_newcomers (o t : List EnvVar) :
    merge (o.filter fun e => e.name ∉ t.map name) [] = added o t := by
  have hnames : (o.filter fun e => e.name ∉ t.map name).map name =
      (o.map name).filter fun n => n ∉ t.map name := by
    rw [List.filter_map]
    rfl
  rw [merge_nil_target, hnames, added, newNames]
  refine List.filterMap_congr fun n hn => ?_
  have hnew : n ∉ t.map name := by simpa using (List.mem_filter.mp (List.mem_eraseDups.mp hn)).2
  exact last?_filter fun e _ he => by simpa [he] using hnew

theorem nodup_eraseDups (ns : List String) : ns.eraseDups.Nodup := by
  induction h : ns.length using Nat.strong_induction_on generalizing ns with
  | _ k ih =>
    cases ns with
    | nil => simp
    | cons n ns =>
      have hle := List.length_filter_le (fun m => !m == n) ns
      rw [List.length_cons] at h
      rw [List.eraseDups_cons, List.nodup_cons]
      exact ⟨by simp [List.mem_eraseDups], ih _ (by omega) _ rfl⟩

/-- As many entries come in as there are names that were missing. -/
theorem length_added (o t : List EnvVar) :
    (added o t).length = ((o.map name).toFinset \ (t.map name).toFinset).card := by
  have hall : ∀ n ∈ newNames o t, (last? n o).isSome := by
    intro n hn
    exact last?_isSome.mpr (List.mem_filter.mp (List.mem_eraseDups.mp hn)).1
  have hset : (newNames o t).toFinset = (o.map name).toFinset \ (t.map name).toFinset := by
    ext n
    simp [newNames, List.mem_eraseDups]
  have hnodup : (newNames o t).Nodup := nodup_eraseDups _
  rw [← hset, List.toFinset_card_of_nodup hnodup, added, List.length_filterMap_eq_countP,
    List.countP_eq_length.mpr hall]

/-- Names that are all new and all different go to the end as they are. -/
theorem merge_of_nodup (h : ((t ++ o).map name).Nodup) : merge o t = t ++ o := by
  induction o generalizing t with
  | nil => simp
  | cons e o ih =>
    have hassoc : t ++ e :: o = (t ++ [e]) ++ o := by simp
    have hnew : e.name ∉ t.map name := by
      rw [List.map_append, List.nodup_append] at h
      intro hmem
      exact h.2.2 e.name hmem e.name (by simp) rfl
    rw [merge_cons, set_of_notMem hnew, hassoc, ih (hassoc ▸ h)]

/-! ## The closed form -/

/-- **A merge in closed form.**  The first entry of a name is replaced as a whole by
    the last override of the name and every other entry stays where and as it
    is; behind them stand the names that are new, in the order in which they
    first occur, each with its last override.  So the list grows by the number
    of names that were missing.  A list that is missing counts as empty, and becomes
    the overrides themselves if their names are distinct. -/
theorem merge_closedForm (o t : List EnvVar) :
    merge o t = replaced o t ++ added o t ∧
      (merge o t).length =
        t.length + ((o.map name).toFinset \ (t.map name).toFinset).card ∧
      mergeOptional o (some t) = some (replaced o t ++ added o t) ∧
      mergeOptional o none = some (added o []) ∧
      ((o.map name).Nodup → mergeOptional o none = some o) := by
  have hform : ∀ t, merge o t = replaced o t ++ added o t := by
    intro t
    rw [merge_eq_replaced_append, merge_newcomers]
  refine ⟨hform t, ?_, congrArg some (hform t), congrArg some (hform []), fun h => ?_⟩
  · rw [hform, List.length_append, length_replaced, length_added]
  · exact congrArg some (merge_of_nodup (t := []) h)

/-- A name that is there twice, one that is overridden twice, and new ones. -/
theorem merge_closedForm_repeated :
    merge [plain "B" "1", plain "A" "1", plain "B" "2", plain "C" "1", plain "A" "2"]
        [plain "A" "0", plain "D" "0", plain "A" "0"] =
      [plain "A" "2", plain "D" "0", plain "A" "0", plain "B" "2", plain "C" "1"] ∧
    mergeOptional [plain "B" "1", plain "A" "1"] none = some [plain "B" "1", plain "A" "1"] := by
  refine ⟨?_, (merge_closedForm _ []).2.2.2.2 (by decide)⟩
  rw [(merge_closedForm _ _).1]
  decide

end WorkloadEnv.EnvVar
