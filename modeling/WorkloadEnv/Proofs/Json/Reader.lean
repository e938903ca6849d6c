import WorkloadEnv.Json.Reader
import WorkloadEnv.Proofs.Decode.Record
import WorkloadEnv.Proofs.Json.Finite
import WorkloadEnv.Proofs.Number.Finite

/-! # Values that are read are ordered and finite

    The reader sets the members of an object one by one, each at the place of its
    name, so every value it gives is ordered at every depth (`ordered_of_parse`);
    and a number that is too large for a double is an error, so all numbers are
    finite (`finite_of_parse`).  This is where the order comes from that the laws
    on members rest on.

    Both are cases of one statement: what holds of the values there are to begin
    with, and is kept by the ways in which the reader puts values together
    (`Kept`), holds of everything it reads (`Kept.of_parse`). -/

namespace WorkloadEnv.Json

variable {P : Json → Prop} {bs : List UInt8}

/-- The reader begins with values of the property, and keeps it. -/
structure Kept (P : Json → Prop) : Prop where
  null : P .null
  bool : ∀ b, P (.bool b)
  int : ∀ n, P (.int n)
  float : ∀ x : Double, x.isFinite = true → P (.float x)
  text : ∀ s, P (.text s)
  list : ∀ js : List Json, (∀ j ∈ js, P j) → P (.list js)
  empty : P (.object [])
  put : ∀ name j ms, P (.object ms) → P j → P (.object (Members.put name j ms))

/-! ## Numbers -/

theorem appendDigits_lt {bound n : Nat} (h : n < bound) (ds : List UInt8) :
    (appendDigits bound n ds).1 < bound := by
  induction ds generalizing n with
  | nil => exact h
  | cons d ds ih =>
    rw [appendDigits]
    dsimp only
    split
    · next hnext => exact ih hnext
    · exact h

theorem Kept.of_ofInteger (hP : Kept P) {n : Nat} (negative : Bool) (h : n < pow2 64) :
    P (ofInteger negative n) := by
  unfold ofInteger
  split
  · exact hP.int _
  · split
    · exact hP.float _ (Double.isFinite_ofQuotient_one h)
    · exact hP.int _

/-- A number is an integer or finite. -/
theorem Kept.of_readNumber (hP : Kept P) {negative : Bool} {r : Json × List UInt8}
    (h : readNumber negative bs = .ok r) : P r.1 := by
  obtain ⟨⟨whole, bs₁⟩, -, h⟩ := bind_eq_ok_iff.mp h
  obtain ⟨⟨fraction, bs₂⟩, -, h⟩ := bind_eq_ok_iff.mp h
  obtain ⟨⟨exponent, bs₃⟩, -, h⟩ := bind_eq_ok_iff.mp h
  have hwhole : (appendDigits (pow2 64) 0 whole).1 < pow2 64 := appendDigits_lt (by decide) whole
  have hdigits := appendDigits_lt hwhole (fraction.getD [])
  dsimp only at h
  split at h
  · cases h
    exact hP.of_ofInteger negative hdigits
  · split at h
    · next hx =>
      cases h
      exact hP.float _ (Double.isFinite_of_scale? (Double.isFinite_ofQuotient_one hdigits) hx)
    · cases h

/-! ## Values -/

/-- Within a bound, whatever the three readers give has the property. -/
structure ReadsKept (P : Json → Prop) (fuel : Nat) : Prop where
  value : ∀ bs r, readValue fuel bs = .ok r → P r.1
  items : ∀ bs r, readItems fuel bs = .ok r → ∀ j ∈ r.1, P j
  members : ∀ acc bs r, P (object acc) → readMembers fuel acc bs = .ok r → P (object r.1)

namespace ReadsKept

variable {fuel : Nat}

theorem value_succ (hP : Kept P) (ih : ReadsKept P fuel) {r : Json × List UInt8}
    (h : readValue (fuel + 1) bs = .ok r) : P r.1 := by
  rw [readValue] at h
  split at h
  · cases h
  · -- one case for each byte a value can begin with
    split at h
    · obtain ⟨_, -, rfl⟩ := map_eq_ok_iff.mp h
      exact hP.null
    · obtain ⟨_, -, rfl⟩ := map_eq_ok_iff.mp h
      exact hP.bool _
    · obtain ⟨_, -, rfl⟩ := map_eq_ok_iff.mp h
      exact hP.bool _
    · exact hP.of_readNumber h
    · obtain ⟨_, -, rfl⟩ := map_eq_ok_iff.mp h
      exact hP.text _
    · dsimp only at h
      split at h
      · cases h
        exact hP.list [] fun _ hj => by cases hj
      · obtain ⟨r, hr, rfl⟩ := map_eq_ok_iff.mp h
        exact hP.list _ (ih.items _ r hr)
    · dsimp only at h
      split at h
      · cases h
        exact hP.empty
      · obtain ⟨r, hr, rfl⟩ := map_eq_ok_iff.mp h
        exact ih.members [] _ r hP.empty hr
    · split at h
      · exact hP.of_readNumber h
      · cases h

theorem items_succ (ih : ReadsKept P fuel) {r : List Json × List UInt8}
    (h : readItems (fuel + 1) bs = .ok r) : ∀ j ∈ r.1, P j := by
  rw [readItems] at h
  obtain ⟨⟨first, bs₁⟩, hfirst, h⟩ := bind_eq_ok_iff.mp h
  have hkept : P first := ih.value _ _ hfirst
  intro j hj
  dsimp only at h
  split at h
  · cases h
  · cases h
    obtain rfl := List.mem_singleton.mp hj
    exact hkept
  · split at h
    · cases h
    · obtain ⟨r, hr, rfl⟩ := map_eq_ok_iff.mp h
      rcases List.mem_cons.mp hj with rfl | hj
      · exact hkept
      · exact ih.items _ r hr j hj
  · cases h

theorem members_succ (hP : Kept P) (ih : ReadsKept P fuel) {acc : Members Json}
    {r : Members Json × List UInt8} (hacc : P (object acc))
    (h : readMembers (fuel + 1) acc bs = .ok r) : P (object r.1) := by
  rw [readMembers] at h
  obtain ⟨⟨name, bs₁⟩, -, h⟩ := bind_eq_ok_iff.mp h
  obtain ⟨⟨j, bs₂⟩, hj, h⟩ := bind_eq_ok_iff.mp h
  -- the new member goes to the place of its name
  have hput : P (object (Members.put name j acc)) := hP.put name j acc hacc (ih.value _ _ hj)
  dsimp only at h
  split at h
  · cases h
  · cases h
    exact hput
  · split at h
    · cases h
    · exact ih.members _ _ r hput h
  · cases h

end ReadsKept

theorem readsKept (hP : Kept P) (fuel : Nat) : ReadsKept P fuel := by
  induction fuel with
  | zero =>
    refine ⟨fun bs r h => ?_, fun bs r h => ?_, fun acc bs r _ h => ?_⟩
    · cases h
    · cases h
    · cases h
  | succ fuel ih => exact ⟨fun _ _ => ih.value_succ hP, fun _ _ => ih.items_succ,
      fun _ _ _ => ih.members_succ hP⟩

/-- **A property that the reader keeps holds of every value that is read from a text.** -/
theorem Kept.of_parse (hP : Kept P) {s : String} {j : Json} (h : parse s = .ok j) : P j := by
  obtain ⟨⟨a, rest⟩, hread, hrest⟩ := bind_eq_ok_iff.mp (mapError_eq_ok_iff.mp h)
  dsimp only at hrest
  split at hrest
  · cases hrest
    exact (readsKept hP _).value _ _ hread
  · cases hrest

/-- **Every value that is read from a text is ordered.** -/
theorem ordered_of_parse {s : String} {j : Json} (h : parse s = .ok j) : j.Ordered := by
  have hkept : Kept Ordered :=
    { null := trivial
      bool := fun _ => trivial
      int := fun _ => trivial
      float := fun _ _ => trivial
      text := fun _ => trivial
      list := fun _ => ordered_list_iff.mpr
      empty := ⟨List.Pairwise.nil, trivial⟩
      put := fun _ _ _ hms hj => hms.put hj }
  exact hkept.of_parse h

/-- **Every number of a value that is read from a text is finite.** -/
theorem finite_of_parse {s : String} {j : Json} (h : parse s = .ok j) : j.Finite := by
  have hkept : Kept Finite :=
    { null := trivial
      bool := fun _ => trivial
      int := fun _ => trivial
      float := fun _ hx => hx
      text := fun _ => trivial
      list := fun _ => finite_list_iff.mpr
      empty := trivial
      put := fun _ _ _ hms hj => hms.put hj }
  exact hkept.of_parse h

end WorkloadEnv.Json
