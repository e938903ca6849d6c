import WorkloadEnv.Proofs.EnvVar.WriteBack

/-! # Any environment over any entries

    The entries that an environment is written over may be any JSON at all, and
    the environment need not have come from them.  Every variable has a written
    form, so there always is an outcome.  What stands at a position afterwards is
    settled by the variable and the entry of that position: the entry stays if it
    reads as the variable, and else it is the written form of the variable
    (`realisation`).

    Entries behind the last variable are not looked at and stay
    (`writeOver_eq_append`).  So the environment is realised if and only if there
    are no more entries than variables (`realises_writeOver_iff`).

    The entries can also be visited one after the other, by their positions, in
    a list that grows on the way.  The invariant of these visits is that the
    positions behind the current one are still as they were (`scan_append`). -/

namespace WorkloadEnv.EnvVar

variable {e : EnvVar} {es : List EnvVar} {j : Json} {js js' : List Json} {old : Option Json}

/-! ## One position -/

/-- What stands in the place of a variable afterwards: the entry that was there if it
    reads as the variable, else the written form of the variable. -/
def entryOver (e : EnvVar) : Option Json → Json
  | some j => if e.isReadFrom j then j else e.toJson
  | none => e.toJson

theorem entryOver_of_read (h : read j = .ok e) : e.entryOver (some j) = j :=
  if_pos (isReadFrom_iff.mpr h)

theorem entryOver_of_not_read (h : ∀ j, old = some j → read j ≠ .ok e) :
    e.entryOver old = e.toJson := by
  cases old with
  | none => rfl
  | some j => exact if_neg fun hread => h j rfl (isReadFrom_iff.mp hread)

/-- Whatever stood there, it reads as the variable. -/
theorem read_entryOver (e : EnvVar) (old : Option Json) : read (e.entryOver old) = .ok e := by
  by_cases h : ∃ j, old = some j ∧ read j = .ok e
  · obtain ⟨j, rfl, hj⟩ := h
    rw [entryOver_of_read hj, hj]
  · rw [entryOver_of_not_read fun j hj hread => h ⟨j, hj, hread⟩, read_toJson]

/-! ## All positions -/

/-- The environment over the entries, position by position. -/
def realisation (es : List EnvVar) (js : List Json) : List Json :=
  es.mapIdx fun i e => e.entryOver js[i]?

theorem getElem?_realisation {i : Nat} (h : es[i]? = some e) :
    (realisation es js)[i]? = some (e.entryOver js[i]?) := by
  rw [realisation, List.getElem?_mapIdx, h, Option.map_some]

theorem length_realisation (es : List EnvVar) (js : List Json) :
    (realisation es js).length = es.length := List.length_mapIdx

/-- The entries `js'` realise an environment over the entries `js`. -/
structure Realises (es : List EnvVar) (js js' : List Json) : Prop where
  /-- There is one entry for each variable. -/
  length_eq : js'.length = es.length
  /-- Each entry reads as its variable. -/
  reads : ∀ (i : Nat) e j', es[i]? = some e → js'[i]? = some j' → read j' = .ok e
  /-- An entry is kept if and only if it read as its variable before. -/
  kept_iff : ∀ (i : Nat) e j, es[i]? = some e → js[i]? = some j → (js'[i]? = some j ↔ read j = .ok e)
  /-- Every other entry is the written form of its variable. -/
  written : ∀ (i : Nat) e, es[i]? = some e → (∀ j, js[i]? = some j → read j ≠ .ok e) →
    js'[i]? = some e.toJson

theorem realises_realisation (es : List EnvVar) (js : List Json) :
    Realises es js (realisation es js) := by
  constructor
  · exact length_realisation es js
  · intro i e j' he hj'
    rw [getElem?_realisation he, Option.some.injEq] at hj'
    rw [← hj', read_entryOver]
  · intro i e j he hj
    rw [getElem?_realisation he, hj, Option.some.injEq]
    constructor
    · intro hsame
      -- what is there reads as the variable, so the entry does if it is still there
      rw [← hsame, read_entryOver]
    · exact entryOver_of_read
  · intro i e he hother
    rw [getElem?_realisation he, entryOver_of_not_read hother]

/-- **There is one way to realise an environment over given entries.** -/
theorem realises_iff : Realises es js js' ↔ js' = realisation es js := by
  constructor
  · intro h
    apply List.ext_getElem?
    intro i
    cases he : es[i]? with
    | none =>
      -- behind the last variable neither list has an entry
      have hlength : es.length ≤ i := List.getElem?_eq_none_iff.mp he
      rw [List.getElem?_eq_none_iff.mpr (h.length_eq ▸ hlength),
        List.getElem?_eq_none_iff.mpr (length_realisation es js ▸ hlength)]
    | some e =>
      rw [getElem?_realisation he]
      -- an entry that is kept and one that is written are each told by a condition
      by_cases hold : ∃ j, js[i]? = some j ∧ read j = .ok e
      · obtain ⟨j, hj, hread⟩ := hold
        rw [hj, entryOver_of_read hread]
        exact (h.kept_iff i e j he hj).mpr hread
      · have hother : ∀ j, js[i]? = some j → read j ≠ .ok e :=
          fun j hj hread => hold ⟨j, hj, hread⟩
        rw [entryOver_of_not_read hother]
        exact h.written i e he hother
  · rintro rfl
    exact realises_realisation es js

/-! ## Writing -/

theorem writeOver_cons (e : EnvVar) (es : List EnvVar) (js : List Json) :
    writeOver (e :: es) js = e.entryOver js.head? :: writeOver es js.tail := by
  cases js <;> rfl

theorem realisation_cons (e : EnvVar) (es : List EnvVar) (js : List Json) :
    realisation (e :: es) js = e.entryOver js.head? :: realisation es js.tail := by
  unfold realisation
  rw [List.mapIdx_cons, List.head?_eq_getElem?]
  simp [List.getElem?_tail]

/-- **The environment is realised, and what stood behind it is left over.** -/
theorem writeOver_eq_append (es : List EnvVar) (js : List Json) :
    writeOver es js = realisation es js ++ js.drop es.length := by
  induction es generalizing js with
  | nil => rfl
  | cons e es ih =>
    rw [writeOver_cons, realisation_cons, ih, List.cons_append, List.length_cons, List.drop_tail]

/-- **Writing realises an environment exactly over entries that are not more than its
    variables.** -/
theorem realises_writeOver_iff : Realises es js (writeOver es js) ↔ js.length ≤ es.length := by
  rw [realises_iff, writeOver_eq_append, List.append_right_eq_self, List.drop_eq_nil_iff]

/-! ## Visiting position after position -/

/-- Visits one position: an entry that reads as the variable stays, any other is
    replaced, and at the end of the list one is added. -/
def visit (e : EnvVar) (i : Nat) (js : List Json) : List Json :=
  match js[i]? with
  | some j => if e.isReadFrom j then js else js.set i e.toJson
  | none => js ++ [e.toJson]

/-- Visits the positions from the given one on, a variable at each. -/
def scan (i : Nat) : List EnvVar → List Json → List Json
  | [], js => js
  | e :: es, js => scan (i + 1) es (visit e i js)

/-- One visit settles its position and leaves those before and behind it alone. -/
theorem visit_append (e : EnvVar) (done js : List Json) :
    visit e done.length (done ++ js) = done ++ e.entryOver js.head? :: js.tail := by
  unfold visit
  cases js with
  | nil => simp [entryOver]
  | cons j js =>
    by_cases h : e.isReadFrom j = true <;> simp [entryOver, h]

/-- **The invariant of the visits.**  The positions before the current one are settled,
    and those from it on are as they were. -/
theorem scan_append (es : List EnvVar) (done js : List Json) :
    scan done.length es (done ++ js) = done ++ writeOver es js := by
  induction es generalizing done js with
  | nil => rfl
  | cons e es ih =>
    -- the entry that was settled joins those before it, and the visits go on behind it
    have hdone : done ++ e.entryOver js.head? :: js.tail =
        (done ++ [e.entryOver js.head?]) ++ js.tail := by simp
    have hnext : done.length + 1 = (done ++ [e.entryOver js.head?]).length := by simp
    rw [scan, visit_append, hdone, hnext, ih, writeOver_cons]
    simp

/-- The visits come to writing the environment over the entries. -/
theorem scan_eq_writeOver (es : List EnvVar) (js : List Json) : scan 0 es js = writeOver es js :=
  scan_append es [] js

end WorkloadEnv.EnvVar
