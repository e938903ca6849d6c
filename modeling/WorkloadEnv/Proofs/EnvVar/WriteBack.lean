import WorkloadEnv.Workload.WriteBack
import WorkloadEnv.Proofs.Decode.Scalar
import WorkloadEnv.Proofs.EnvVar.Merge
import WorkloadEnv.Proofs.EnvVar.RoundTrip

/-! # Writing an environment over its entries

    The entries that are written read as the environment, whatever stood there
    before (`read_writeOver`), and writing again changes nothing
    (`writeOver_writeOver`).  For a single override the outcome is told without
    reading any entry: it takes the place of the first entry of its name, or
    goes to the end (`writeOver_set`). -/

namespace WorkloadEnv.EnvVar

open Kubernetes

variable {e a : EnvVar} {es : List EnvVar} {j n : Json} {js : List Json}

/-! ## Reading one entry -/

theorem read_eq_ok_iff : read j = .ok e ↔ ∃ n, envVar.read j = .ok n ∧ ofNormal n = e :=
  map_eq_ok_iff

theorem isReadFrom_iff : e.isReadFrom j = true ↔ read j = .ok e := by
  unfold isReadFrom
  cases read j with
  | ok a => simp
  | error _ => simp

theorem envVar_hasMember_name : envVar.HasMember "name" (.required, .text) :=
  ⟨_, _, _, rfl, by decide, rfl⟩

/-- The name of a variable is the one its entry tells, and empty if it tells none. -/
theorem name_of_read (hj : j.Ordered) (h : read j = .ok a) :
    a.name = (j.textAt? "name").getD "" := by
  obtain ⟨n, hn, rfl⟩ := read_eq_ok_iff.mp h
  obtain ⟨ms, rfl⟩ := envVar_hasMember_name.object hn
  show ((n.get? "name").bind Json.text?).getD "" =
    ((Members.get? "name" ms).bind Json.text?).getD ""
  rcases envVar_hasMember_name.read_cases hj.sorted hn with ⟨x, m, hx, -, hm, hget⟩ | ⟨habs, hget⟩
  · obtain ⟨s, hs, rfl⟩ := Shape.read_text_iff.mp hm
    obtain rfl := Json.layer_eq_text_iff.mp hs
    rw [hget, hx]
  · -- a missing name is read as the empty one, and null has no text either
    rw [hget]
    cases hx : Members.get? "name" ms with
    | none => rfl
    | some x =>
      cases x with
      | null => rfl
      | _ => cases habs _ hx

/-! ## Entries that read as an environment -/

/-- The entries read as the environment, one for one. -/
def ReadsAll (js : List Json) (es : List EnvVar) : Prop :=
  List.Forall₂ (fun j e => read j = .ok e) js es

/-- **What is written reads as the environment**, whatever stood there before. -/
theorem read_writeOver (h : js.length ≤ es.length) : ReadsAll (writeOver es js) es := by
  induction es generalizing js with
  | nil =>
    obtain rfl : js = [] := List.eq_nil_of_length_eq_zero (Nat.le_zero.mp h)
    exact .nil
  | cons e es ih =>
    cases js with
    | nil => exact .cons (read_toJson e) (ih (Nat.zero_le _))
    | cons j js =>
      refine .cons ?_ (ih (Nat.le_of_succ_le_succ h))
      split
      · next hj => exact isReadFrom_iff.mp hj
      · exact read_toJson e

theorem ordered_writeOver (hjs : ∀ j ∈ js, j.Ordered) (es : List EnvVar) :
    ∀ j ∈ writeOver es js, j.Ordered := by
  induction es generalizing js with
  | nil => exact hjs
  | cons e es ih =>
    intro j hj
    cases js with
    | nil =>
      rcases List.mem_cons.mp hj with rfl | hj
      · exact e.normal_toJson.ordered
      · exact ih hjs j hj
    | cons j' js =>
      have hrest : ∀ j ∈ js, j.Ordered := fun j hj => hjs j (List.mem_cons_of_mem _ hj)
      rcases List.mem_cons.mp hj with rfl | hj
      · split
        · exact hjs j' List.mem_cons_self
        · exact e.normal_toJson.ordered
      · exact ih hrest j hj

/-- Entries that read as the environment stay as they are. -/
theorem writeOver_of_readsAll (h : ReadsAll js es) : writeOver es js = js := by
  induction h with
  | nil => rfl
  | cons hj _ ih => rw [writeOver, if_pos (isReadFrom_iff.mpr hj), ih]

/-- **Writing again changes nothing.** -/
theorem writeOver_writeOver (es : List EnvVar) (js : List Json) :
    writeOver es (writeOver es js) = writeOver es js := by
  induction es generalizing js with
  | nil => rfl
  | cons e es ih =>
    -- an entry that was replaced is recognised the second time
    have hself : e.isReadFrom e.toJson = true := isReadFrom_iff.mpr (read_toJson e)
    cases js with
    | nil => rw [writeOver, writeOver, if_pos hself, ih]
    | cons j js =>
      rw [writeOver, writeOver, ih]
      by_cases hj : e.isReadFrom j = true
      · rw [if_pos hj, if_pos hj]
      · rw [if_neg hj, if_pos hself]

/-! ## A single override -/

/-- Does the entry tell the name? -/
def hasName (name : String) (j : Json) : Bool := j.textAt? "name" = some name

/-- Puts a variable in the place of the first entry of its name, or at the end.
    An entry that reads as the variable stays. -/
def setEntry (e : EnvVar) (js : List Json) : List Json :=
  match js.findIdx? (hasName e.name) with
  | some k => js.modify k fun j => if e.isReadFrom j then j else e.toJson
  | none => js ++ [e.toJson]

theorem setEntry_of_findIdx? {k : Nat} (hk : js.findIdx? (hasName e.name) = some k)
    (hj : js[k]? = some j) :
    setEntry e js = js.set k (if e.isReadFrom j then j else e.toJson) := by
  rw [setEntry, hk]
  show js.modify k _ = _
  rw [List.modify_eq_set, hj]
  rfl

theorem setEntry_cons_of_hasName (h : hasName e.name j = true) :
    setEntry e (j :: js) = (if e.isReadFrom j then j else e.toJson) :: js := by
  rw [setEntry, List.findIdx?_cons, if_pos h]
  rfl

theorem setEntry_cons_of_not_hasName (h : hasName e.name j = false) :
    setEntry e (j :: js) = j :: setEntry e js := by
  rw [setEntry, setEntry, List.findIdx?_cons, if_neg (by simp [h])]
  cases js.findIdx? (hasName e.name) <;> rfl

theorem hasName_toJson (e : EnvVar) : hasName e.name e.toJson = true :=
  decide_eq_true (show e.toJson.textAt? "name" = some e.name from rfl)

theorem hasName_iff_of_read (hj : j.Ordered) (h : read j = .ok a) (he : e.name ≠ "") :
    hasName e.name j = true ↔ a.name = e.name := by
  rw [name_of_read hj h, hasName, decide_eq_true_iff]
  cases j.textAt? "name" with
  | none => simp [he.symm]
  | some s => simp

/-- **A single override, on raw entries.** -/
theorem writeOver_set (he : e.name ≠ "") (hjs : ∀ j ∈ js, j.Ordered) (h : ReadsAll js es) :
    writeOver (set e es) js = setEntry e js := by
  induction h with
  | nil => rfl
  | @cons j a js es hj hrest ih =>
    have hname := hasName_iff_of_read (hjs j List.mem_cons_self) hj he
    rw [set_cons]
    -- the typed name and the raw one agree, so both sides stop at the same entry
    by_cases ha : a.name = e.name
    · rw [if_pos ha, writeOver, writeOver_of_readsAll hrest,
        setEntry_cons_of_hasName (hname.mpr ha)]
    · have hnot : hasName e.name j = false := by
        rw [← Bool.not_eq_true, hname]
        exact ha
      rw [if_neg ha, writeOver, if_pos (isReadFrom_iff.mpr hj),
        ih fun j' hj' => hjs j' (List.mem_cons_of_mem _ hj'), setEntry_cons_of_not_hasName hnot]

/-! ## Looking the override up -/

/-- The first entry of the name is where it was, or at the end if there was none. -/
theorem findIdx_setEntry (e : EnvVar) (js : List Json) :
    (setEntry e js).findIdx (hasName e.name) = js.findIdx (hasName e.name) := by
  induction js with
  | nil => simp [setEntry, hasName_toJson]
  | cons j js ih =>
    cases hj : hasName e.name j with
    | true =>
      rw [setEntry_cons_of_hasName hj, List.findIdx_cons, List.findIdx_cons, hj]
      split <;> simp [hj, hasName_toJson]
    | false => rw [setEntry_cons_of_not_hasName hj, List.findIdx_cons, List.findIdx_cons, hj, ih]

/-- It has the name and reads as the variable. -/
theorem getElem?_setEntry_self (e : EnvVar) (js : List Json) :
    ∃ j, (setEntry e js)[js.findIdx (hasName e.name)]? = some j ∧ hasName e.name j = true ∧
      read j = .ok e := by
  induction js with
  | nil => exact ⟨e.toJson, rfl, hasName_toJson e, read_toJson e⟩
  | cons j js ih =>
    cases hj : hasName e.name j with
    | true =>
      rw [setEntry_cons_of_hasName hj, List.findIdx_cons, hj]
      split
      · next hread => exact ⟨j, rfl, hj, isReadFrom_iff.mp hread⟩
      · exact ⟨e.toJson, rfl, hasName_toJson e, read_toJson e⟩
    | false =>
      rw [setEntry_cons_of_not_hasName hj, List.findIdx_cons, hj]
      exact ih

/-- Every other entry stays where it is. -/
theorem getElem?_setEntry_ne {i : Nat} (h : i ≠ js.findIdx (hasName e.name)) :
    (setEntry e js)[i]? = js[i]? := by
  induction js generalizing i with
  | nil =>
    cases i with
    | zero => exact absurd rfl h
    | succ i => rfl
  | cons j js ih =>
    rw [List.findIdx_cons] at h
    cases hj : hasName e.name j with
    | true =>
      rw [setEntry_cons_of_hasName hj]
      cases i with
      | zero => exact absurd (by rw [hj]; rfl) h
      | succ i => rfl
    | false =>
      rw [hj] at h
      rw [setEntry_cons_of_not_hasName hj]
      cases i with
      | zero => rfl
      | succ i => exact ih fun hi => h (congrArg Nat.succ hi)

end WorkloadEnv.EnvVar
