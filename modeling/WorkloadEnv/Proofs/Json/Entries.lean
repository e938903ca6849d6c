import WorkloadEnv.Proofs.Json.Path
import Mathlib.Data.List.Forall2

/-! # The entries of a value

    A path leads to members and items.  Two values have the same entries when at
    every path both have one or neither has, and what is there is the same
    scalar, or a list in both, or an object in both (`Json.SameEntries`).  The
    order of the members of an object does not show in this.

    That every path agrees is the same as agreeing level by level
    (`sameEntries_iff`): lists item by item, objects name by name.  Later proofs
    use the levels and never the paths. -/

namespace WorkloadEnv

section Rel

variable {α β : Type} {R : α → β → Prop} {a : α} {b : β} {u : Option α} {v : Option β}

theorem rel_none_left_iff : Option.Rel R none v ↔ v = none := by
  cases v <;> simp

theorem rel_none_right_iff : Option.Rel R u none ↔ u = none := by
  cases u <;> simp

theorem rel_some_left_iff : Option.Rel R (some a) v ↔ ∃ b, v = some b ∧ R a b := by
  cases v <;> simp

theorem rel_some_right_iff : Option.Rel R u (some b) ↔ ∃ a, u = some a ∧ R a b := by
  cases u <;> simp

end Rel

/-- One step down a value. -/
inductive Step where
  | member (name : String)
  | item (index : Nat)
  deriving DecidableEq, Repr

namespace Json

variable {a b c j x : Json} {s : Step} {path : List Step} {ms ns : Members Json}
  {js ks : List Json}

/-- What stands one step below; a value without such a member or item has nothing there. -/
def step : Step → Json → Option Json
  | .member name, j => j.get? name
  | .item i, j => j.items[i]?

/-- What stands at the end of a path. -/
def find? : List Step → Json → Option Json
  | [], j => some j
  | s :: path, j => (j.step s).bind (find? path)

/-- The value itself if it is a scalar, else whether it is a list or an object. -/
def found (j : Json) : Found := j.layer.found

/-- At every path the two values have the same entry, or none. -/
def SameEntries (a b : Json) : Prop :=
  ∀ path, (a.find? path).map found = (b.find? path).map found

/-! ## Level by level -/

/-- **Values have the same entries if they are alike and so is what stands below them.** -/
theorem sameEntries_iff :
    SameEntries a b ↔ a.found = b.found ∧ ∀ s, Option.Rel SameEntries (a.step s) (b.step s) := by
  constructor
  · intro h
    refine ⟨Option.some.inj (h []), fun s => ?_⟩
    have hbelow : ∀ path, ((a.step s).bind (find? path)).map found =
        ((b.step s).bind (find? path)).map found := fun path => h (s :: path)
    -- a path of this step alone tells whether anything is there
    have hhere := hbelow []
    cases ha : a.step s with
    | none =>
      cases hb : b.step s with
      | none => exact .none
      | some y =>
        rw [ha, hb] at hhere
        cases hhere
    | some x =>
      cases hb : b.step s with
      | none =>
        rw [ha, hb] at hhere
        cases hhere
      | some y =>
        rw [ha, hb] at hbelow
        exact .some hbelow
  · rintro ⟨hfound, hsteps⟩ path
    cases path with
    | nil => exact congrArg some hfound
    | cons s path =>
      show ((a.step s).bind (find? path)).map found = ((b.step s).bind (find? path)).map found
      have hstep := hsteps s
      generalize a.step s = u, b.step s = w at hstep
      cases hstep with
      | none => rfl
      | some h => exact h path

theorem SameEntries.refl (j : Json) : j.SameEntries j := fun _ => rfl

theorem SameEntries.symm (h : a.SameEntries b) : b.SameEntries a := fun path => (h path).symm

/-- What has the entries of a scalar is that scalar. -/
theorem sameEntries_of_scalar (hlist : b.found ≠ .list) (hmap : b.found ≠ .map) :
    SameEntries a b ↔ a = b := by
  constructor
  · intro h
    have hfound := (sameEntries_iff.mp h).1
    cases b with
    | list js => exact absurd rfl hlist
    | object ms => exact absurd rfl hmap
    | _ =>
      cases a <;> cases hfound
      rfl
  · rintro rfl
    exact .refl a

theorem sameEntries_text {s : String} : SameEntries a (text s) ↔ a = text s :=
  sameEntries_of_scalar (by rintro ⟨⟩) (by rintro ⟨⟩)

theorem sameEntries_null : SameEntries a null ↔ a = null :=
  sameEntries_of_scalar (by rintro ⟨⟩) (by rintro ⟨⟩)

/-! ## Lists -/

/-- Lists are paired exactly if each place is, also beyond their ends. -/
theorem forall₂_iff_rel_getElem? {α β : Type} {R : α → β → Prop} {as : List α} {bs : List β} :
    List.Forall₂ R as bs ↔ ∀ i : Nat, Option.Rel R as[i]? bs[i]? := by
  constructor
  · intro h
    induction h with
    | nil => exact fun i => .none
    | cons hab _ ih =>
      intro i
      cases i with
      | zero => exact .some hab
      | succ i => simpa using ih i
  · intro h
    induction as generalizing bs with
    | nil =>
      cases bs with
      | nil => exact .nil
      | cons b bs => cases h 0
    | cons a as ih =>
      cases bs with
      | nil => cases h 0
      | cons b bs =>
        have hhead : Option.Rel R (some a) (some b) := h 0
        exact .cons (Option.rel_some_some.mp hhead) (ih fun i => by simpa using h (i + 1))

theorem sameEntries_list_iff :
    SameEntries (list js) (list ks) ↔ List.Forall₂ SameEntries js ks := by
  rw [sameEntries_iff, forall₂_iff_rel_getElem?]
  constructor
  · rintro ⟨-, h⟩ i
    exact h (.item i)
  · intro h
    refine ⟨rfl, fun s => ?_⟩
    cases s with
    | member name => exact .none
    | item i => exact h i

theorem SameEntries.list_of_right (h : a.SameEntries (list ks)) : ∃ js, a = list js := by
  have hfound := (sameEntries_iff.mp h).1
  cases a with
  | list js => exact ⟨js, rfl⟩
  | _ => cases hfound

/-! ## Objects -/

theorem sameEntries_object_iff :
    SameEntries (object ms) (object ns) ↔
      ∀ name, Option.Rel SameEntries (Members.get? name ms) (Members.get? name ns) := by
  rw [sameEntries_iff]
  constructor
  · rintro ⟨-, h⟩ name
    exact h (.member name)
  · intro h
    refine ⟨rfl, fun s => ?_⟩
    cases s with
    | member name => exact h name
    | item i => exact .none

theorem SameEntries.object_of_right (h : a.SameEntries (object ns)) : ∃ ms, a = object ms := by
  have hfound := (sameEntries_iff.mp h).1
  cases a with
  | object ms => exact ⟨ms, rfl⟩
  | _ => cases hfound

/-! ## Distinct names -/

/-- At every depth the names of an object are distinct, in whichever order they stand. -/
def Distinct (j : Json) : Prop :=
  ∀ path ms, j.find? path = some (object ms) → (ms.map Prod.fst).Nodup

theorem Distinct.nodup (h : (object ms).Distinct) : (ms.map Prod.fst).Nodup := h [] ms rfl

theorem Distinct.step (h : j.Distinct) (hx : j.step s = some x) : x.Distinct := by
  intro path ms hms
  refine h (s :: path) ms ?_
  show (j.step s).bind (find? path) = _
  rw [hx]
  exact hms

theorem Distinct.of_mem_list (h : (list js).Distinct) (hx : x ∈ js) : x.Distinct := by
  obtain ⟨i, hi⟩ := List.getElem?_of_mem hx
  exact h.step (s := .item i) hi

theorem Distinct.get? {name : String} (h : (object ms).Distinct)
    (hx : Members.get? name ms = some x) : x.Distinct := h.step (s := .member name) hx

theorem Distinct.of_mem_object {m : String × Json} (h : (object ms).Distinct) (hm : m ∈ ms) :
    m.2.Distinct := h.get? (Members.get?_of_mem h.nodup hm)

/-- Ordered values are among those with distinct names. -/
theorem Ordered.distinct (h : j.Ordered) : j.Distinct := by
  intro path ms hms
  induction path generalizing j with
  | nil =>
    obtain rfl : j = object ms := Option.some.inj hms
    exact h.sorted.nodup
  | cons s path ih =>
    obtain ⟨x, hx, hms⟩ := Option.bind_eq_some_iff.mp hms
    refine ih ?_ hms
    cases s with
    | member name => exact h.get? hx
    | item i =>
      cases j with
      | list js => exact ordered_list_iff.mp h x (List.mem_of_getElem? hx)
      | _ => cases hx

end Json

namespace Members

variable {α β : Type} {R : α → β → Prop} {ms : Members α} {ns : Members β}

/-- Members with distinct names that are set one after the other are all found. -/
theorem get?_putAll_nil {name : String} (hn : (ms.map Prod.fst).Nodup) :
    get? name (putAll [] ms) = get? name ms := by
  rw [get?_putAll hn, get?_nil, Option.or_none]

theorem map_fst_eq_of_forall₂ (h : List.Forall₂ (fun m n => n.1 = m.1) ms ns) :
    ns.map Prod.fst = ms.map Prod.fst := by
  induction h with
  | nil => rfl
  | cons h _ ih => rw [List.map_cons, List.map_cons, h, ih]

/-- Members with the same distinct names are related name by name if they are one by
    one. -/
theorem forall₂_iff_rel_get? (hn : (ms.map Prod.fst).Nodup)
    (hnames : ns.map Prod.fst = ms.map Prod.fst) :
    List.Forall₂ (fun m n => R m.2 n.2) ms ns ↔
      ∀ name, Option.Rel R (get? name ms) (get? name ns) := by
  induction ms generalizing ns with
  | nil =>
    obtain rfl : ns = [] := by simpa using hnames
    exact ⟨fun _ _ => .none, fun _ => .nil⟩
  | cons m ms ih =>
    cases ns with
    | nil => cases hnames
    | cons n ns =>
      obtain ⟨hname, hnames⟩ := List.cons.inj hnames
      rw [List.map_cons, List.nodup_cons] at hn
      rw [List.forall₂_cons, ih hn.2 hnames]
      constructor
      · rintro ⟨hhead, hrest⟩ name
        rw [get?_cons, get?_cons, hname]
        split
        · exact .some hhead
        · exact hrest name
      · intro h
        refine ⟨?_, fun name => ?_⟩
        · have hhead := h m.1
          rw [get?_cons, get?_cons, if_pos rfl, if_pos hname] at hhead
          exact Option.rel_some_some.mp hhead
        · by_cases hm : m.1 = name
          · -- the name of the first member is not there again
            subst hm
            rw [get?_eq_none_iff_notMem.mpr hn.1, get?_eq_none_iff_notMem.mpr (hnames ▸ hn.1)]
            exact .none
          · have hname' : ¬n.1 = name := fun h' => hm (hname.symm.trans h')
            have hrest := h name
            rwa [get?_cons, get?_cons, if_neg hm, if_neg hname'] at hrest

end Members

end WorkloadEnv
