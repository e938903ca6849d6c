import WorkloadEnv.EnvVar.Merge
import Mathlib.Data.List.Induction

/-! # Laws of merging

    Setting a variable keeps all names where they are and adds at most one at
    the end.  Which variable stands under a name is settled by the last override
    of that name, so merging absorbs an earlier merge of the same names
    (`merge_merge`): what the first one set is set again by the second. -/

namespace WorkloadEnv.EnvVar

variable {e e' : EnvVar} {t u o o' : List EnvVar} {n : String}

/-! ## Setting one variable -/

theorem set_cons (a : EnvVar) (t : List EnvVar) :
    set e (a :: t) = if a.name = e.name then e :: t else a :: set e t := rfl

/-- A name that is not there yet goes to the end. -/
theorem set_of_notMem (h : e.name ∉ t.map name) : set e t = t ++ [e] := by
  induction t with
  | nil => rfl
  | cons a t ih =>
    rw [List.map_cons, List.mem_cons, not_or] at h
    rw [set_cons, if_neg fun h' => h.1 h'.symm, ih h.2, List.cons_append]

/-- A name that is there is set where it is. -/
theorem set_append_of_mem (h : e.name ∈ t.map name) : set e (t ++ u) = set e t ++ u := by
  induction t with
  | nil => cases h
  | cons a t ih =>
    rw [List.cons_append, set_cons, set_cons]
    by_cases ha : a.name = e.name
    · rw [if_pos ha, if_pos ha, List.cons_append]
    · rw [List.map_cons, List.mem_cons] at h
      rw [if_neg ha, if_neg ha, ih (h.resolve_left fun h' => ha h'.symm), List.cons_append]

theorem map_name_set :
    (set e t).map name = if e.name ∈ t.map name then t.map name else t.map name ++ [e.name] := by
  induction t with
  | nil => rfl
  | cons a t ih =>
    rw [set_cons]
    by_cases ha : a.name = e.name
    · simp [ha]
    · have hne : ¬e.name = a.name := fun h => ha h.symm
      rw [if_neg ha, List.map_cons, ih]
      by_cases ht : e.name ∈ t.map name
      · have hmem : e.name ∈ (a :: t).map name := List.mem_cons_of_mem _ ht
        rw [if_pos ht, if_pos hmem, List.map_cons]
      · have hmem : e.name ∉ (a :: t).map name := by
          rw [List.map_cons, List.mem_cons, not_or]
          exact ⟨hne, ht⟩
        rw [if_neg ht, if_neg hmem, List.map_cons, List.cons_append]

theorem mem_map_name_set : n ∈ (set e t).map name ↔ n = e.name ∨ n ∈ t.map name := by
  rw [map_name_set]
  split
  · next h => exact ⟨.inr, fun h' => h'.elim (fun hn => hn ▸ h) id⟩
  · rw [List.mem_append, List.mem_singleton, or_comm]

theorem length_le_length_set (e : EnvVar) (t : List EnvVar) : t.length ≤ (set e t).length := by
  have h := congrArg List.length (map_name_set (e := e) (t := t))
  rw [List.length_map] at h
  split at h <;> simp at h <;> omega

/-- The later of two variables of one name is the one that stays. -/
theorem set_set_of_eq (h : e'.name = e.name) (t : List EnvVar) : set e (set e' t) = set e t := by
  induction t with
  | nil => simp [set, h]
  | cons a t ih =>
    rw [set_cons, set_cons]
    by_cases ha : a.name = e.name
    · rw [if_pos (ha.trans h.symm), if_pos ha, set_cons, if_pos h]
    · rw [if_neg (fun h' => ha (h'.trans h)), if_neg ha, set_cons, if_neg ha, ih]

/-- Variables of two names can be set in either order once one of the names is there. -/
theorem set_comm (hne : e'.name ≠ e.name) (h : e.name ∈ t.map name) :
    set e (set e' t) = set e' (set e t) := by
  induction t with
  | nil => cases h
  | cons a t ih =>
    rw [set_cons, set_cons]
    by_cases ha : a.name = e.name
    · have ha' : a.name ≠ e'.name := fun h' => hne (h'.symm.trans ha)
      rw [if_neg ha', if_pos ha, set_cons, if_pos ha, set_cons, if_neg hne.symm]
    · rw [List.map_cons, List.mem_cons] at h
      have ht : e.name ∈ t.map name := h.resolve_left fun h' => ha h'.symm
      by_cases ha' : a.name = e'.name
      · rw [if_pos ha', if_neg ha, set_cons, if_neg hne, set_cons, if_pos ha']
      · rw [if_neg ha', if_neg ha, set_cons, if_neg ha, set_cons, if_neg ha', ih ht]

/-! ## Merging -/

@[simp] theorem merge_nil (t : List EnvVar) : merge [] t = t := rfl

@[simp] theorem merge_cons : merge (e :: o) t = merge o (set e t) := rfl

theorem merge_concat : merge (o ++ [e]) t = set e (merge o t) := by
  rw [merge, List.foldl_append]
  rfl

theorem length_le_length_merge (o t : List EnvVar) : t.length ≤ (merge o t).length := by
  induction o generalizing t with
  | nil => exact Nat.le_refl _
  | cons e o ih => exact Nat.le_trans (length_le_length_set e t) (ih _)

theorem mem_map_name_merge :
    n ∈ (merge o t).map name ↔ n ∈ o.map name ∨ n ∈ t.map name := by
  induction o generalizing t with
  | nil => simp
  | cons e o ih =>
    rw [merge_cons, ih, mem_map_name_set, List.map_cons, List.mem_cons, or_left_comm, or_assoc]

theorem merge_append_of_mem (h : ∀ e ∈ o, e.name ∈ t.map name) :
    merge o (t ++ u) = merge o t ++ u := by
  induction o generalizing t with
  | nil => rfl
  | cons e o ih =>
    rw [merge_cons, merge_cons, set_append_of_mem (h e List.mem_cons_self)]
    exact ih fun e' he' => mem_map_name_set.mpr (.inr (h e' (List.mem_cons_of_mem _ he')))

/-! ## Merging the same names again -/

/-- Lists that differ at most in the first variable of a name differ in no more
    after a merge. -/
theorem set_merge_congr (ht : e.name ∈ t.map name) (hu : e.name ∈ u.map name)
    (h : set e t = set e u) (o : List EnvVar) : set e (merge o t) = set e (merge o u) := by
  induction o generalizing t u with
  | nil => exact h
  | cons f o ih =>
    have ht' : e.name ∈ (set f t).map name := mem_map_name_set.mpr (.inr ht)
    have hu' : e.name ∈ (set f u).map name := mem_map_name_set.mpr (.inr hu)
    refine ih ht' hu' ?_
    -- an override of the same name is set over, one of another name passes by
    by_cases hf : f.name = e.name
    · rw [set_set_of_eq hf, set_set_of_eq hf, h]
    · rw [set_comm hf ht, set_comm hf hu, h]

/-- What is set before a merge is set again after it. -/
theorem set_merge_set (he : e'.name = e.name) (ho : ∀ f ∈ o, f.name ∈ t.map name) :
    set e (merge o (set e' t)) = set e (merge o t) := by
  by_cases ht : e.name ∈ t.map name
  · exact set_merge_congr (mem_map_name_set.mpr (.inr ht)) ht (set_set_of_eq he t) o
  · -- the name is new, and stays at the end
    have ht' : e'.name ∉ t.map name := he ▸ ht
    have hnew : e'.name ∉ (merge o t).map name := by
      rw [mem_map_name_merge, not_or]
      refine ⟨fun hmem => ?_, ht'⟩
      obtain ⟨f, hf, heq⟩ := List.mem_map.mp hmem
      exact ht' (heq ▸ ho f hf)
    rw [set_of_notMem ht', merge_append_of_mem ho, ← set_of_notMem hnew, set_set_of_eq he]

/-- **A merge absorbs an earlier merge of the same names.** -/
theorem merge_merge (h : o.map name = o'.map name) (t : List EnvVar) :
    merge o' (merge o t) = merge o' t := by
  -- the last override is the one that stays, so the induction goes from the end
  induction o using List.reverseRecOn generalizing o' with
  | nil =>
    obtain rfl : o' = [] := by simpa using h.symm
    rfl
  | append_singleton o e ih =>
    obtain ⟨o', e', rfl⟩ : ∃ p f, o' = p ++ [f] := by
      rcases List.eq_nil_or_concat o' with rfl | ⟨p, f, rfl⟩
      · simp at h
      · exact ⟨p, f, List.concat_eq_append⟩
    rw [List.map_append, List.map_append] at h
    obtain ⟨hnames, he⟩ := List.append_inj' h rfl
    have hmem : ∀ f ∈ o', f.name ∈ (merge o t).map name := by
      intro f hf
      have hname : f.name ∈ o.map name := hnames ▸ List.mem_map_of_mem (f := name) hf
      exact mem_map_name_merge.mpr (.inl hname)
    rw [merge_concat, merge_concat, merge_concat, set_merge_set (by simpa using he) hmem, ih hnames]

end WorkloadEnv.EnvVar
