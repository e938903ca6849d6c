import WorkloadEnv.Proofs.Json.Members
import WorkloadEnv.Decode.Source

/-! # Paths into a value

    What looking up at the end of a path and changing the value there do to one
    another, and which values are ordered.  A change of the data of a document
    is a change at the end of a path, so the laws on documents rest on these. -/

namespace WorkloadEnv.Json

variable {f g : Json → Json} {name other : String} {path : List String} {j x : Json}

/-! ## Looking up -/

@[simp] theorem get?_object (ms : Members Json) : (object ms).get? name = Members.get? name ms := rfl

@[simp] theorem at?_nil (j : Json) : j.at? [] = some j := rfl

theorem at?_cons : j.at? (name :: path) = (j.get? name).bind (at? path) := rfl

theorem at?_singleton (name : String) (j : Json) : j.at? [name] = j.get? name := by
  rw [at?_cons]
  exact Option.bind_fun_some _

/-- What has a member is an object. -/
theorem object_of_get? (h : j.get? name = some x) : ∃ ms, j = object ms := by
  cases j with
  | object ms => exact ⟨ms, rfl⟩
  | _ => cases h

theorem isNull_eq_false_of_get? (h : j.get? name = some x) : j.isNull = false := by
  obtain ⟨ms, rfl⟩ := object_of_get? h
  rfl

/-- Only the last value of a path can be null. -/
theorem isNull_eq_false_of_at? (h : j.at? path = some x) (hx : x.isNull = false) :
    j.isNull = false := by
  cases path with
  | nil =>
    cases h
    exact hx
  | cons name path =>
    obtain ⟨y, hy, -⟩ := Option.bind_eq_some_iff.mp (at?_cons ▸ h)
    exact isNull_eq_false_of_get? hy

/-- Null counts as absent: a value is present, or what is there is null. -/
theorem present_or_absent (v : Option Json) :
    (∃ x, v = some x ∧ x.isNull = false) ∨ ∀ x, v = some x → x.isNull = true := by
  cases v with
  | none =>
    right
    intro x hx
    cases hx
  | some x =>
    cases hnull : x.isNull with
    | false => exact .inl ⟨x, rfl, hnull⟩
    | true =>
      right
      intro y hy
      exact Option.some.inj hy ▸ hnull

/-- Items of a member; what is no list has none. -/
def itemsAt (name : String) (j : Json) : List Json := ((j.get? name).map items).getD []

theorem itemsAt_of_get? {js : List Json} (h : j.get? name = some (list js)) :
    j.itemsAt name = js := by
  rw [itemsAt, h]
  rfl

/-- An item of a member is one of the list that stands there. -/
theorem exists_of_mem_itemsAt (h : x ∈ j.itemsAt name) :
    ∃ js, j.get? name = some (list js) ∧ x ∈ js := by
  rw [itemsAt] at h
  cases hy : j.get? name with
  | none =>
    rw [hy] at h
    cases h
  | some y =>
    rw [hy] at h
    cases y with
    | list js => exact ⟨js, rfl, h⟩
    | _ => cases h

theorem itemsAt_of_absent (h : ∀ x, j.get? name = some x → x.isNull = true) :
    j.itemsAt name = [] := by
  rw [itemsAt]
  cases hx : j.get? name with
  | none => rfl
  | some x =>
    cases x with
    | null => rfl
    | _ => cases h _ hx

/-! ## Changing -/

@[simp] theorem modifyAt_nil (j : Json) : j.modifyAt f [] = f j := by
  cases j <;> rfl

theorem modifyAt_object (ms : Members Json) :
    (object ms).modifyAt f (name :: path) = object (Members.modify name (modifyAt f path) ms) := rfl

@[simp] theorem members_modifyAt :
    (j.modifyAt f (name :: path)).members = Members.modify name (modifyAt f path) j.members := by
  cases j <;> rfl

theorem get?_modifyAt_self :
    (j.modifyAt f (name :: path)).get? name = (j.get? name).map (modifyAt f path) := by
  rw [get?, members_modifyAt, Members.get?_modify_self]
  rfl

theorem get?_modifyAt_ne (h : other ≠ name) :
    (j.modifyAt f (name :: path)).get? other = j.get? other := by
  rw [get?, members_modifyAt, Members.get?_modify_ne h]
  rfl

theorem at?_modifyAt_self : (j.modifyAt f path).at? path = (j.at? path).map f := by
  induction path generalizing j with
  | nil => simp
  | cons name path ih =>
    rw [at?_cons, at?_cons, get?_modifyAt_self]
    cases j.get? name with
    | none => rfl
    | some y => exact ih

theorem itemsAt_modifyAt_ne (h : other ≠ name) :
    (j.modifyAt f (name :: path)).itemsAt other = j.itemsAt other := by
  rw [itemsAt, itemsAt, get?_modifyAt_ne h]

/-- Below another member nothing changes. -/
theorem at?_modifyAt_ne {more : List String} (h : other ≠ name) :
    (j.modifyAt f (name :: path)).at? (other :: more) = j.at? (other :: more) := by
  rw [at?_cons, at?_cons, get?_modifyAt_ne h]

theorem isNull_modifyAt (h : j.at? path = some x) (hx : (f x).isNull = false) :
    (j.modifyAt f path).isNull = false := by
  cases path with
  | nil =>
    cases h
    simpa using hx
  | cons name path =>
    obtain ⟨y, hy, -⟩ := Option.bind_eq_some_iff.mp (at?_cons ▸ h)
    obtain ⟨ms, rfl⟩ := object_of_get? hy
    rfl

theorem modifyAt_modifyAt_self : (j.modifyAt g path).modifyAt f path = j.modifyAt (f ∘ g) path := by
  induction path generalizing j with
  | nil => simp
  | cons name path ih =>
    cases j with
    | object ms =>
      have hstep : modifyAt f path ∘ modifyAt g path = modifyAt (f ∘ g) path := funext fun _ => ih
      rw [modifyAt_object, modifyAt_object, modifyAt_object, Members.modify_modify_self, hstep]
    | _ => rfl

/-- Changes below different members pass each other. -/
theorem modifyAt_comm {more : List String} (h : other ≠ name) :
    (j.modifyAt g (other :: more)).modifyAt f (name :: path) =
      (j.modifyAt f (name :: path)).modifyAt g (other :: more) := by
  cases j with
  | object ms =>
    rw [modifyAt_object, modifyAt_object, modifyAt_object, modifyAt_object, Members.modify_comm h]
  | _ => rfl

/-! ## Properties that are passed on -/

section

variable {P : Json → Prop}

/-- What is passed on to each member is passed on along a path. -/
theorem of_at? (hP : ∀ {name : String} {j x : Json}, P j → j.get? name = some x → P x)
    (h : P j) (hx : j.at? path = some x) : P x := by
  induction path generalizing j with
  | nil =>
    cases hx
    exact h
  | cons name path ih =>
    obtain ⟨y, hy, hx⟩ := Option.bind_eq_some_iff.mp (at?_cons ▸ hx)
    exact ih (hP h hy) hx

/-- What is kept by a change of one member is kept by a change along a path. -/
theorem preserved_modifyAt
    (hP : ∀ {name : String} {ms : Members Json} {g : Json → Json}, P (object ms) →
      (∀ x, P x → P (g x)) → P (object (Members.modify name g ms)))
    (h : P j) (hf : ∀ x, P x → P (f x)) : P (j.modifyAt f path) := by
  induction path generalizing j with
  | nil => simpa using hf j h
  | cons name path ih =>
    cases j with
    | object ms => exact hP h fun x hx => ih hx
    | _ => exact h

end

/-! ## Leaving out -/

/-- Leaves a member of an object out; other values stay. -/
def eraseMember (name : String) : Json → Json
  | object ms => object (Members.erase name ms)
  | j => j

/-- Changes every item of a list; other values stay. -/
def mapItems (f : Json → Json) : Json → Json
  | list js => list (js.map f)
  | j => j

/-! ## Order -/

theorem ordered_list_iff {js : List Json} : (list js).Ordered ↔ ∀ j ∈ js, j.Ordered := by
  rw [Ordered]
  induction js with
  | nil => simp [OrderedItems]
  | cons j js ih => simp [OrderedItems, ih]

theorem orderedMembers_iff {ms : Members Json} : OrderedMembers ms ↔ ∀ m ∈ ms, m.2.Ordered := by
  induction ms with
  | nil => simp [OrderedMembers]
  | cons m ms ih =>
    obtain ⟨n, j⟩ := m
    simp [OrderedMembers, ih]

theorem ordered_object_iff {ms : Members Json} :
    (object ms).Ordered ↔ Members.Sorted ms ∧ ∀ m ∈ ms, m.2.Ordered := by
  rw [Ordered, orderedMembers_iff]

theorem Ordered.sorted {ms : Members Json} (h : (object ms).Ordered) : Members.Sorted ms :=
  (ordered_object_iff.mp h).1

theorem Ordered.get? (h : j.Ordered) (hx : j.get? name = some x) : x.Ordered := by
  obtain ⟨ms, rfl⟩ := object_of_get? hx
  exact (ordered_object_iff.mp h).2 _ (Members.mem_of_get? hx)

theorem Ordered.itemsAt (h : j.Ordered) : ∀ y ∈ j.itemsAt name, y.Ordered := by
  intro y hy
  obtain ⟨js, hjs, hmem⟩ := exists_of_mem_itemsAt hy
  exact ordered_list_iff.mp (h.get? hjs) y hmem

theorem Ordered.at? (h : j.Ordered) (hx : j.at? path = some x) : x.Ordered :=
  of_at? Ordered.get? h hx

theorem Ordered.put {ms : Members Json} (h : (object ms).Ordered) (hx : x.Ordered) :
    (object (Members.put name x ms)).Ordered := by
  obtain ⟨hs, hall⟩ := ordered_object_iff.mp h
  refine ordered_object_iff.mpr ⟨hs.put, fun m hm => ?_⟩
  rcases Members.mem_put hm with rfl | hm
  · exact hx
  · exact hall m hm

theorem Ordered.modify {ms : Members Json} (h : (object ms).Ordered)
    (hg : ∀ x : Json, x.Ordered → (g x).Ordered) : (object (Members.modify name g ms)).Ordered := by
  obtain ⟨hs, hall⟩ := ordered_object_iff.mp h
  refine ordered_object_iff.mpr ⟨hs.modify, fun m hm => ?_⟩
  obtain ⟨m', hm', rfl⟩ := List.mem_map.mp hm
  split
  · exact hg _ (hall m' hm')
  · exact hall m' hm'

theorem Ordered.modifyAt (h : j.Ordered) (hf : ∀ x : Json, x.Ordered → (f x).Ordered) :
    (j.modifyAt f path).Ordered := preserved_modifyAt Ordered.modify h hf

mutual

/-- Whether a value is ordered can be told by looking at it. -/
def decOrdered : (j : Json) → Decidable j.Ordered
  | null | bool _ | int _ | float _ | text _ => isTrue trivial
  | list js => decOrderedItems js
  | object ms =>
    let : Decidable (OrderedMembers ms) := decOrderedMembers ms
    inferInstanceAs (Decidable (List.Pairwise _ ms ∧ OrderedMembers ms))

def decOrderedItems : (js : List Json) → Decidable (OrderedItems js)
  | [] => isTrue trivial
  | j :: js =>
    let : Decidable j.Ordered := decOrdered j
    let : Decidable (OrderedItems js) := decOrderedItems js
    inferInstanceAs (Decidable (j.Ordered ∧ OrderedItems js))

def decOrderedMembers : (ms : List (String × Json)) → Decidable (OrderedMembers ms)
  | [] => isTrue trivial
  | (_, j) :: ms =>
    let : Decidable j.Ordered := decOrdered j
    let : Decidable (OrderedMembers ms) := decOrderedMembers ms
    inferInstanceAs (Decidable (j.Ordered ∧ OrderedMembers ms))

end

instance : DecidablePred Ordered := decOrdered

/-- Along the path the names of every object are distinct and increasing. -/
def SortedAlong : List String → Json → Prop
  | [], _ => True
  | name :: path, j => Members.Sorted j.members ∧ ∀ x, j.get? name = some x → x.SortedAlong path

theorem sortedAlong_object {ms : Members Json} :
    (object ms).SortedAlong (name :: path) ↔
      Members.Sorted ms ∧ ∀ x, Members.get? name ms = some x → x.SortedAlong path := Iff.rfl

theorem Ordered.sortedAlong (h : j.Ordered) (path : List String) : j.SortedAlong path := by
  induction path generalizing j with
  | nil => trivial
  | cons name path ih =>
    refine ⟨?_, fun x hx => ih (h.get? hx)⟩
    cases j with
    | object ms => exact h.sorted
    | _ => exact List.Pairwise.nil

/-- Only what happens at the end of the path counts. -/
theorem modifyAt_congr (hj : j.SortedAlong path) (h : ∀ x, j.at? path = some x → f x = g x) :
    j.modifyAt f path = j.modifyAt g path := by
  induction path generalizing j with
  | nil => simpa using h j rfl
  | cons name path ih =>
    cases j with
    | object ms =>
      obtain ⟨hs, hrest⟩ := sortedAlong_object.mp hj
      rw [modifyAt_object, modifyAt_object]
      refine congrArg object (Members.modify_congr fun x hx => ?_)
      -- the names are distinct, so this is the value the path goes through
      have hget : Members.get? name ms = some x := Members.get?_of_mem hs.nodup hx
      refine ih (hrest x hget) fun y hy => h y ?_
      rw [at?_cons, get?_object, hget]
      exact hy
    | _ => rfl

theorem modifyAt_id : j.modifyAt id path = j := by
  induction path generalizing j with
  | nil => simp
  | cons name path ih =>
    cases j with
    | object ms =>
      have hid : modifyAt id path = id := funext fun _ => ih
      rw [modifyAt_object, hid, Members.modify_id]
    | _ => rfl

/-- Where the value at the end of the path stays the same, so does the whole. -/
theorem modifyAt_eq_self (hj : j.SortedAlong path) (h : ∀ x, j.at? path = some x → f x = x) :
    j.modifyAt f path = j :=
  (modifyAt_congr hj h).trans modifyAt_id

end WorkloadEnv.Json
