import WorkloadEnv.Json.Basic
import Mathlib.Data.String.Basic

/-! # Members by name

    What looking up, setting, changing and leaving out a member do to one
    another.  Most laws hold for any list of members; where a name could be
    there twice, the names have to be increasing (`Members.Sorted`). -/

namespace WorkloadEnv.Members

variable {α : Type} {name other : String} {a b : α} {ms : Members α}

/-! ## Looking up -/

@[simp] theorem get?_nil : get? name ([] : Members α) = none := rfl

theorem get?_cons (m : String × α) :
    get? name (m :: ms) = if m.1 = name then some m.2 else get? name ms := rfl

theorem mem_of_get? (h : get? name ms = some a) : (name, a) ∈ ms := by
  induction ms with
  | nil => cases h
  | cons m ms ih =>
    rw [get?_cons] at h
    split at h
    · next hm =>
      obtain ⟨n, b⟩ := m
      simp only [Option.some.injEq] at h hm
      subst h hm
      exact List.mem_cons_self
    · exact List.mem_cons_of_mem _ (ih h)

theorem get?_eq_none_iff : get? name ms = none ↔ ∀ m ∈ ms, m.1 ≠ name := by
  induction ms with
  | nil => simp
  | cons m ms ih =>
    rw [get?_cons]
    by_cases hm : m.1 = name
    · simp [hm]
    · simp [hm, ih]

theorem get?_eq_none_iff_notMem : get? name ms = none ↔ name ∉ ms.map Prod.fst := by
  rw [get?_eq_none_iff, List.mem_map]
  constructor
  · rintro h ⟨m, hm, heq⟩
    exact h m hm heq
  · intro h m hm heq
    exact h ⟨m, hm, heq⟩

theorem get?_append (ms more : Members α) :
    get? name (ms ++ more) = (get? name ms).or (get? name more) := by
  induction ms with
  | nil => rfl
  | cons m ms ih =>
    rw [List.cons_append, get?_cons, get?_cons, ih]
    split <;> rfl

/-- With distinct names a member is found by its name. -/
theorem get?_of_mem (hn : (ms.map Prod.fst).Nodup) (h : (name, a) ∈ ms) :
    get? name ms = some a := by
  induction ms with
  | nil => cases h
  | cons m ms ih =>
    rw [List.map_cons, List.nodup_cons] at hn
    rw [get?_cons]
    rcases List.mem_cons.mp h with rfl | h
    · simp
    · have hm : m.1 ≠ name := by
        intro hm
        exact hn.1 (hm ▸ List.mem_map_of_mem (f := Prod.fst) h)
      rw [if_neg hm]
      exact ih hn.2 h

/-! ## Setting -/

@[simp] theorem get?_put_self (ms : Members α) : get? name (put name a ms) = some a := by
  fun_induction put name a ms with
  | case1 => simp [get?]
  | case2 => simp [get?]
  | case3 => simp [get?]
  | case4 n b ms hn _ ih => rw [get?_cons, if_neg hn, ih]

theorem get?_put_ne (h : other ≠ name) (ms : Members α) :
    get? other (put name a ms) = get? other ms := by
  fun_induction put name a ms with
  | case1 => simp [get?, h.symm]
  | case2 => simp [get?, h.symm]
  | case3 => simp [get?, h.symm]
  | case4 n b ms _ _ ih => rw [get?_cons, get?_cons, ih]

theorem mem_put {m : String × α} (h : m ∈ put name a ms) : m = (name, a) ∨ m ∈ ms := by
  fun_induction put name a ms with
  | case1 => simpa using h
  | case2 b ms =>
    rcases List.mem_cons.mp h with h | h
    · exact .inl h
    · exact .inr (List.mem_cons_of_mem _ h)
  | case3 n b ms _ _ => exact List.mem_cons.mp h
  | case4 n b ms _ _ ih =>
    rcases List.mem_cons.mp h with rfl | h
    · exact .inr List.mem_cons_self
    · exact (ih h).imp_right (List.mem_cons_of_mem _)

/-- With distinct names, what is set last is found first. -/
theorem get?_putAll {more : Members α} (hn : (more.map Prod.fst).Nodup) (ms : Members α) :
    get? name (putAll ms more) = (get? name more).or (get? name ms) := by
  induction more generalizing ms with
  | nil => rfl
  | cons m more ih =>
    rw [List.map_cons, List.nodup_cons] at hn
    have hrest : get? name (putAll ms (m :: more)) =
        (get? name more).or (get? name (put m.1 m.2 ms)) := ih hn.2 (put m.1 m.2 ms)
    rw [hrest, get?_cons]
    by_cases hm : m.1 = name
    · -- no later member has the name, so the one just set is found
      have hlater : get? name more = none := get?_eq_none_iff_notMem.mpr (hm ▸ hn.1)
      rw [if_pos hm, hlater, hm, get?_put_self]
      rfl
    · rw [if_neg hm, get?_put_ne fun h => hm h.symm]

@[simp] theorem put_put_self (ms : Members α) : put name a (put name b ms) = put name a ms := by
  fun_induction put name b ms with
  | case1 => simp [put]
  | case2 => simp [put]
  | case3 n c ms hn hlt => rw [put, if_pos rfl, put, if_neg hn, if_pos hlt]
  | case4 n c ms hn hlt ih => rw [put, if_neg hn, if_neg hlt, ih, put, if_neg hn, if_neg hlt]

/-! ## Leaving out -/

theorem erase_cons (m : String × α) :
    erase name (m :: ms) = if m.1 = name then erase name ms else m :: erase name ms := by
  unfold erase
  rw [List.filter_cons]
  by_cases hm : m.1 = name <;> simp [hm]

@[simp] theorem get?_erase_self (ms : Members α) : get? name (erase name ms) = none := by
  rw [get?_eq_none_iff]
  intro m hm
  simpa using (List.mem_filter.mp hm).2

theorem get?_erase_ne (h : other ≠ name) (ms : Members α) :
    get? other (erase name ms) = get? other ms := by
  induction ms with
  | nil => rfl
  | cons m ms ih =>
    rw [erase_cons, get?_cons]
    by_cases hm : m.1 = name
    · have hne : m.1 ≠ other := fun ho => h (ho.symm.trans hm)
      rw [if_pos hm, if_neg hne, ih]
    · rw [if_neg hm, get?_cons, ih]

@[simp] theorem erase_erase_self (ms : Members α) : erase name (erase name ms) = erase name ms := by
  simp [erase, List.filter_filter]

theorem erase_comm (ms : Members α) :
    erase name (erase other ms) = erase other (erase name ms) := by
  simp only [erase, List.filter_filter, Bool.and_comm]

/-- Setting a member is not seen where the member is left out. -/
@[simp] theorem erase_put_self (ms : Members α) : erase name (put name a ms) = erase name ms := by
  fun_induction put name a ms with
  | case1 => simp [erase]
  | case2 => simp [erase]
  | case3 => simp [erase]
  | case4 n b ms hn _ ih => rw [erase_cons, erase_cons, ih]

/-! ## Changing -/

variable {f g : α → α}

theorem modify_cons (m : String × α) :
    modify name f (m :: ms) = (if m.1 = name then (m.1, f m.2) else m) :: modify name f ms := rfl

@[simp] theorem map_fst_modify (ms : Members α) :
    (modify name f ms).map Prod.fst = ms.map Prod.fst := by
  unfold modify
  rw [List.map_map]
  refine List.map_congr_left fun m _ => ?_
  simp only [Function.comp]
  split <;> rfl

@[simp] theorem get?_modify_self (ms : Members α) :
    get? name (modify name f ms) = (get? name ms).map f := by
  induction ms with
  | nil => rfl
  | cons m ms ih =>
    rw [modify_cons, get?_cons, get?_cons]
    by_cases hm : m.1 = name
    · simp [hm]
    · simp [hm, ih]

theorem get?_modify_ne (h : other ≠ name) (ms : Members α) :
    get? other (modify name f ms) = get? other ms := by
  induction ms with
  | nil => rfl
  | cons m ms ih =>
    rw [modify_cons, get?_cons, get?_cons, ih]
    by_cases hm : m.1 = name
    · have hne : m.1 ≠ other := fun ho => h (ho.symm.trans hm)
      rw [if_pos hm, if_neg hne, if_neg hne]
    · rw [if_neg hm]

theorem modify_modify_self (ms : Members α) :
    modify name f (modify name g ms) = modify name (f ∘ g) ms := by
  unfold modify
  rw [List.map_map]
  refine List.map_congr_left fun m _ => ?_
  by_cases hm : m.1 = name <;> simp [hm]

theorem modify_comm (h : other ≠ name) (ms : Members α) :
    modify name f (modify other g ms) = modify other g (modify name f ms) := by
  unfold modify
  rw [List.map_map, List.map_map]
  refine List.map_congr_left fun m _ => ?_
  by_cases hm : m.1 = name
  · simp [hm, h.symm]
  · by_cases ho : m.1 = other <;> simp [hm, ho, h]

/-- Only what happens to the values of the name counts. -/
theorem modify_congr (h : ∀ a, (name, a) ∈ ms → f a = g a) : modify name f ms = modify name g ms := by
  unfold modify
  refine List.map_congr_left fun m hm => ?_
  split
  · next hn =>
    obtain ⟨n, a⟩ := m
    subst hn
    rw [h a hm]
  · rfl

@[simp] theorem modify_id (ms : Members α) : modify name id ms = ms := by
  simp [modify]

theorem modify_of_get?_eq_none (h : get? name ms = none) : modify name f ms = ms := by
  refine (modify_congr fun a ha => ?_).trans (modify_id ms)
  exact absurd rfl (get?_eq_none_iff.mp h _ ha)

@[simp] theorem erase_modify_self (ms : Members α) :
    erase name (modify name f ms) = erase name ms := by
  induction ms with
  | nil => rfl
  | cons m ms ih =>
    rw [modify_cons, erase_cons, erase_cons, ih]
    by_cases hm : m.1 = name <;> simp [hm]

/-- Setting and changing pass each other: the value that is set is changed if it has the name. -/
theorem modify_put (ms : Members α) :
    modify name f (put other a ms) =
      put other (if other = name then f a else a) (modify name f ms) := by
  fun_induction put other a ms with
  | case1 =>
    simp only [modify, List.map_cons, List.map_nil, put]
    split <;> simp_all
  | case2 b ms =>
    simp only [modify_cons]
    by_cases h : other = name <;> simp [h, put]
  | case3 n b ms hn hlt =>
    simp only [modify_cons]
    by_cases h : other = name
    · have hne : n ≠ name := fun h' => hn (h'.trans h.symm)
      rw [put]
      simp [h, hne, h ▸ hlt]
    · by_cases h' : n = name <;> rw [put] <;> simp_all
  | case4 n b ms hn hlt ih =>
    rw [modify_cons, modify_cons, ih]
    by_cases h' : n = name
    · rw [if_pos h', put, if_neg hn, if_neg hlt]
    · rw [if_neg h', put, if_neg hn, if_neg hlt]

theorem modify_putAll (ms more : Members α) :
    modify name f (putAll ms more) = putAll (modify name f ms) (modify name f more) := by
  induction more generalizing ms with
  | nil => rfl
  | cons m more ih =>
    have hm : put m.1 (if m.1 = name then f m.2 else m.2) (modify name f ms) =
        modify name f (put m.1 m.2 ms) := (modify_put ms).symm
    calc modify name f (putAll (put m.1 m.2 ms) more)
        = putAll (modify name f (put m.1 m.2 ms)) (modify name f more) := ih _
      _ = putAll (modify name f ms) (modify name f (m :: more)) := by
        rw [← hm, modify_cons]
        by_cases h : m.1 = name <;> simp [h, putAll]

/-! ## Increasing names -/

theorem Sorted.tail {m : String × α} (h : Sorted (m :: ms)) : Sorted ms :=
  (List.pairwise_cons.mp h).2

theorem Sorted.nodup (h : Sorted ms) : (ms.map Prod.fst).Nodup := by
  refine List.pairwise_map.mpr (h.imp fun hlt heq => ?_)
  exact absurd (heq ▸ hlt) (lt_irrefl _)

/-- Lists with the same names are sorted together. -/
theorem sorted_iff_map_fst : Sorted ms ↔ (ms.map Prod.fst).Pairwise (· < ·) :=
  List.pairwise_map.symm

theorem Sorted.put (h : Sorted ms) : Sorted (put name a ms) := by
  fun_induction Members.put name a ms with
  | case1 => exact List.pairwise_singleton _ _
  | case2 b ms =>
    obtain ⟨hall, htail⟩ := List.pairwise_cons.mp h
    exact List.pairwise_cons.mpr ⟨hall, htail⟩
  | case3 n b ms _ hlt =>
    refine List.pairwise_cons.mpr ⟨fun m hm => ?_, h⟩
    rcases List.mem_cons.mp hm with rfl | hm
    · exact hlt
    · exact lt_trans hlt ((List.pairwise_cons.mp h).1 m hm)
  | case4 n b ms hn hlt ih =>
    obtain ⟨hall, htail⟩ := List.pairwise_cons.mp h
    have hgt : n < name := lt_of_le_of_ne (not_lt.mp hlt) hn
    refine List.pairwise_cons.mpr ⟨fun m hm => ?_, ih htail⟩
    rcases mem_put hm with rfl | hm
    · exact hgt
    · exact hall m hm

theorem Sorted.putAll {more : Members α} (h : Sorted ms) : Sorted (putAll ms more) := by
  induction more generalizing ms with
  | nil => exact h
  | cons m more ih => exact ih h.put

theorem Sorted.modify (h : Sorted ms) : Sorted (modify name f ms) := by
  rw [sorted_iff_map_fst, map_fst_modify]
  exact sorted_iff_map_fst.mp h

/-- A name that is found in front is the least one. -/
theorem Sorted.get?_eq_none_of_lt {m : String × α} (h : Sorted (m :: ms)) (hlt : name < m.1) :
    get? name (m :: ms) = none := by
  rw [get?_eq_none_iff]
  intro m' hm' heq
  rcases List.mem_cons.mp hm' with rfl | hm'
  · exact absurd (heq ▸ hlt) (lt_irrefl _)
  · exact absurd (lt_trans (heq ▸ (List.pairwise_cons.mp h).1 m' hm') hlt) (lt_irrefl _)

/-- The first name is not there again. -/
theorem Sorted.get?_tail {m : String × α} (h : Sorted (m :: ms)) : get? m.1 ms = none :=
  get?_eq_none_iff_notMem.mpr (List.nodup_cons.mp h.nodup).1

/-- **Sorted members are told by what is found in them.** -/
theorem Sorted.ext {ms' : Members α} (h : Sorted ms) (h' : Sorted ms')
    (heq : ∀ name, get? name ms = get? name ms') : ms = ms' := by
  induction ms generalizing ms' with
  | nil =>
    cases ms' with
    | nil => rfl
    | cons m' ms' => simpa [get?_cons] using heq m'.1
  | cons m ms ih =>
    cases ms' with
    | nil => simpa [get?_cons] using heq m.1
    | cons m' ms' =>
      have hm : get? m.1 (m' :: ms') = some m.2 := by rw [← heq, get?_cons, if_pos rfl]
      have hm' : get? m'.1 (m :: ms) = some m'.2 := by rw [heq, get?_cons, if_pos rfl]
      -- neither list can begin with a smaller name than the other
      have hname : m.1 = m'.1 := by
        rcases lt_trichotomy m.1 m'.1 with hlt | hname | hlt
        · rw [h'.get?_eq_none_of_lt hlt] at hm
          cases hm
        · exact hname
        · rw [h.get?_eq_none_of_lt hlt] at hm'
          cases hm'
      have hvalue : m.2 = m'.2 := by
        rw [← hname, get?_cons, if_pos rfl] at hm'
        exact Option.some.inj hm'
      have hrest : ms = ms' := by
        refine ih h.tail h'.tail fun name => ?_
        by_cases hn : m.1 = name
        · rw [← hn, h.get?_tail, hname, h'.get?_tail]
        · have := heq name
          rwa [get?_cons, if_neg hn, get?_cons, if_neg (hname ▸ hn)] at this
      rw [hrest, Prod.ext hname hvalue]

/-- Changing the only member of a name is setting it. -/
theorem Sorted.modify_eq_put (h : Sorted ms) (ha : get? name ms = some a) :
    Members.modify name f ms = Members.put name (f a) ms := by
  refine Sorted.ext h.modify h.put fun other => ?_
  by_cases ho : other = name
  · rw [ho, get?_modify_self, get?_put_self, ha, Option.map_some]
  · rw [get?_modify_ne ho, get?_put_ne ho]

theorem Sorted.erase (h : Sorted ms) : Sorted (Members.erase name ms) :=
  h.sublist List.filter_sublist

/-- Leaving out one member and setting another pass each other. -/
theorem Sorted.erase_put_ne (h : Sorted ms) (hne : name ≠ other) :
    Members.erase name (Members.put other a ms) = Members.put other a (Members.erase name ms) := by
  refine Sorted.ext h.put.erase h.erase.put fun third => ?_
  by_cases hn : third = name
  · rw [hn, get?_erase_self, get?_put_ne hne, get?_erase_self]
  · rw [get?_erase_ne hn]
    by_cases ho : third = other
    · rw [ho, get?_put_self, get?_put_self]
    · rw [get?_put_ne ho, get?_put_ne ho, get?_erase_ne hn]

/-- A member that is left out and set again is where it was. -/
theorem Sorted.put_erase (h : Sorted ms) (ha : get? name ms = some a) :
    Members.put name a (Members.erase name ms) = ms := by
  refine Sorted.ext h.erase.put h fun other => ?_
  by_cases ho : other = name
  · rw [ho, get?_put_self, ha]
  · rw [get?_put_ne ho, get?_erase_ne ho]

/-- Without a member of the name nothing is left out. -/
theorem erase_of_get?_eq_none (h : get? name ms = none) : erase name ms = ms :=
  List.filter_eq_self.mpr fun m hm => by simpa using get?_eq_none_iff.mp h m hm

end WorkloadEnv.Members
