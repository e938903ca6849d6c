import WorkloadEnv.Proofs.Decode.Stable
import WorkloadEnv.Proofs.EnvVar.RoundTrip
import WorkloadEnv.Proofs.Json.Reader

/-! # What normal forms are like

    What is read from a value as JSON can write it is again such a value: the
    names of its objects are increasing and its numbers are finite
    (`Shape.proper_of_read`).  Together with stability this says that what was
    read is its own normal form (`Shape.normal_of_read`), and a normal form stays
    one when a member of it is set to a normal form (`HasMember.normal_put`). -/

namespace WorkloadEnv

/-! ## Values as JSON can write them -/

/-- At every depth the names of an object are increasing and the numbers finite. -/
structure Json.Proper (j : Json) : Prop where
  ordered : j.Ordered
  finite : j.Finite

namespace Json

variable {j x : Json} {name : String} {ms : Members Json}

theorem proper_list_iff {js : List Json} : (list js).Proper ↔ ∀ j ∈ js, j.Proper := by
  constructor
  · intro h j hj
    exact ⟨ordered_list_iff.mp h.ordered j hj, finite_list_iff.mp h.finite j hj⟩
  · intro h
    exact ⟨ordered_list_iff.mpr fun j hj => (h j hj).ordered,
      finite_list_iff.mpr fun j hj => (h j hj).finite⟩

theorem proper_object_iff :
    (object ms).Proper ↔ Members.Sorted ms ∧ ∀ m ∈ ms, m.2.Proper := by
  constructor
  · intro h
    obtain ⟨hsorted, hordered⟩ := ordered_object_iff.mp h.ordered
    exact ⟨hsorted, fun m hm => ⟨hordered m hm, finite_object_iff.mp h.finite m hm⟩⟩
  · rintro ⟨hsorted, hall⟩
    exact ⟨ordered_object_iff.mpr ⟨hsorted, fun m hm => (hall m hm).ordered⟩,
      finite_object_iff.mpr fun m hm => (hall m hm).finite⟩

theorem Proper.put (h : (object ms).Proper) (hx : x.Proper) :
    (object (Members.put name x ms)).Proper :=
  ⟨h.ordered.put hx.ordered, h.finite.put hx.finite⟩

/-- What is read from a text is as JSON can write it. -/
theorem proper_of_parse {s : String} (h : parse s = .ok j) : j.Proper :=
  ⟨ordered_of_parse h, finite_of_parse h⟩

/-- JSON carries itself. -/
theorem carries_id : Carries (id : Json → Json) where
  layer j := by
    cases j <;> simp [Source.layer, layer, Layer.carry]
  absent _ := rfl
  keepable _ := rfl
  free _ _ _ := rfl

end Json

namespace Shape

variable {fixed : List (String × String)} {members : Members (Presence × Shape)}
variable {s item value : Shape} {p : Presence × Shape} {name : String} {j n x : Json}
variable {ms : Members Json}

/-! ## Shape by shape -/

theorem regular_of_mem : ∀ {members : Members (Presence × Shape)},
    AllRegular members → ∀ m ∈ members, m.2.2.Regular
  | [], _, _, hm => by cases hm
  | (_, _, s) :: members, hs, m, hm => by
    rcases List.mem_cons.mp hm with rfl | hm
    · exact hs.1
    · exact regular_of_mem hs.2 m hm

/-- Values as JSON can write them are read as such values. -/
def KeepsProper (s : Shape) : Prop := ∀ j n : Json, j.Proper → s.read j = .ok n → n.Proper

theorem keepsProper_text : KeepsProper text := by
  intro j n _ h
  obtain ⟨t, -, rfl⟩ := read_text_iff.mp h
  exact ⟨trivial, trivial⟩

theorem keepsProper_bool : KeepsProper bool := by
  intro j n _ h
  obtain ⟨b, -, rfl⟩ := read_bool_iff.mp h
  exact ⟨trivial, trivial⟩

theorem proper_of_readInt {bits : Nat} {expected : String} (h : readInt bits expected j = .ok n) :
    n.Proper := by
  obtain ⟨k, -, -, rfl⟩ := readInt_iff.mp h
  exact ⟨trivial, trivial⟩

theorem keepsProper_intOrText : KeepsProper intOrText := by
  intro j n _ h
  rcases read_intOrText_iff.mp h with ⟨k, -, -, rfl⟩ | ⟨s, -, rfl⟩
  · exact ⟨trivial, trivial⟩
  · exact ⟨trivial, trivial⟩

theorem keepsProper_time : KeepsProper time := by
  intro j n _ h
  obtain ⟨s, t, -, -, rfl⟩ := read_time_iff.mp h
  exact ⟨trivial, trivial⟩

theorem keepsProper_list (hitem : KeepsProper item) : KeepsProper (list item) := by
  intro j n hj h
  obtain ⟨js, ns, rfl, rfl, hall⟩ := read_list_iff.mp h
  refine Json.proper_list_iff.mpr fun n hn => ?_
  obtain ⟨j, hmem, hread⟩ := exists_of_mem_right hall hn
  exact hitem j n (Json.proper_list_iff.mp hj j hmem) hread

theorem keepsProper_map (hvalue : KeepsProper value) : KeepsProper (map value) := by
  intro j n hj h
  obtain ⟨ms, out, rfl, rfl, hout⟩ := read_map_iff.mp h
  obtain ⟨hsorted, hfrom⟩ := of_readEntries hout List.Pairwise.nil
  refine Json.proper_object_iff.mpr ⟨hsorted, fun m hm => ?_⟩
  rcases hfrom m hm with hm | ⟨x, hx, hread⟩
  · cases hm
  · exact hvalue x m.2 ((Json.proper_object_iff.mp hj).2 _ hx) hread

/-- What stands in a normal form was read from an entry, or is a default, which is
    itself read from some value. -/
theorem read_of_memberValue (hregular : p.2.Regular) (hms : (Json.object ms).Proper)
    (h : memberValue ms name p = some n) : ∃ x : Json, x.Proper ∧ p.2.read x = .ok n := by
  unfold memberValue at h
  rcases Option.or_eq_some_iff.mp h with hpresent | ⟨-, hmissing⟩
  · obtain ⟨v, hv, hread⟩ := Option.bind_eq_some_iff.mp hpresent
    split at hread
    · cases hread
    · cases hv' : p.2.read v with
      | error cause =>
        rw [hv'] at hread
        cases hread
      | ok m =>
        rw [hv'] at hread
        cases hread
        exact ⟨v, (Json.proper_object_iff.mp hms).2 _ (Members.mem_of_get? hv), hv'⟩
  · unfold missing at hmissing
    split at hmissing
    · cases hmissing
      obtain ⟨x, hordered, hfinite, hread⟩ := exists_read_default hregular
      exact ⟨x, ⟨hordered, hfinite⟩, hread⟩
    · cases hmissing

theorem keepsProper_record {record : String} (hw : WellNamed fixed members)
    (hregular : AllRegular members) (hall : ∀ m ∈ members, KeepsProper m.2.2) :
    KeepsProper (.record record fixed members) := by
  intro j n hj h
  obtain ⟨ms, rfl⟩ := object_of_read_record h
  obtain ⟨-, rfl⟩ := (read_record_iff hw hj.ordered.sorted).mp h
  refine Json.proper_object_iff.mpr ⟨sorted_normalForm hw, fun m hm => ?_⟩
  rcases List.mem_append.mp hm with hfixed | hnormal
  · obtain ⟨f, -, rfl⟩ := List.mem_map.mp hfixed
    exact ⟨trivial, trivial⟩
  · obtain ⟨⟨name, p⟩, hp, hvalue⟩ := List.mem_filterMap.mp hnormal
    obtain ⟨y, hy, rfl⟩ := Option.map_eq_some_iff.mp hvalue
    obtain ⟨x, hx, hread⟩ := read_of_memberValue (regular_of_mem hregular _ hp) hj hy
    exact hall _ hp x y hx hread

/-! ## All shapes -/

mutual

theorem keepsProper : ∀ s : Shape, s.Regular → KeepsProper s
  | text, _ => keepsProper_text
  | bool, _ => keepsProper_bool
  | int32, _ => fun _ _ _ h => proper_of_readInt (by rwa [read] at h)
  | int64, _ => fun _ _ _ h => proper_of_readInt (by rwa [read] at h)
  | intOrText, _ => keepsProper_intOrText
  | time, _ => keepsProper_time
  | free, _ => fun _ _ hj h => Except.ok.inj h ▸ hj
  | list item, hs => keepsProper_list (keepsProper item hs)
  | map value, hs => keepsProper_map (keepsProper value hs)
  | record _ _ members, hs => keepsProper_record hs.1 hs.2 (keepsProper_members members hs.2)

theorem keepsProper_members : ∀ members : List (String × Presence × Shape),
    AllRegular members → ∀ m ∈ members, KeepsProper m.2.2
  | [], _ => fun _ hm => by cases hm
  | (_, _, s) :: members, hs => by
    intro m hm
    rcases List.mem_cons.mp hm with rfl | hm
    · exact keepsProper s hs.1
    · exact keepsProper_members members hs.2 m hm

end

/-- **What is read is as JSON can write it**, if what it is read from is. -/
theorem proper_of_read (hs : s.Regular) (hj : j.Proper) (h : s.read j = .ok n) : n.Proper :=
  keepsProper s hs j n hj h

/-- **What is read from JSON is its own normal form.** -/
theorem normal_of_read (hs : s.Regular) (hj : j.Proper) (hnull : j.isNull = false)
    (h : s.read j = .ok n) : s.Normal n := by
  obtain ⟨hagain, hnotnull⟩ := stable Json.carries_id s hs j n hj.ordered hj.finite h
  exact ⟨hnotnull hnull, (proper_of_read hs hj h).ordered, hagain⟩

/-! ## Members of normal forms -/

/-- A normal form stays one when a member is set to a normal form. -/
theorem HasMember.normal_put (hp : s.HasMember name p) (h : s.Normal (.object ms))
    (hx : p.2.Normal x) : s.Normal (.object (Members.put name x ms)) where
  isNull := rfl
  ordered := h.ordered.put hx.ordered
  read := hp.read_put h.ordered.sorted h.read hx.isNull hx.read

/-- The members of a regular shape are regular. -/
theorem HasMember.regular (hp : s.HasMember name p) (hs : s.Regular) : p.2.Regular := by
  obtain ⟨record, fixed, members, rfl, -, hp⟩ := hp
  exact regular_of_mem hs.2 _ (Members.mem_of_get? hp)

/-- A member of a normal form was read, or is one that may be missing. -/
theorem HasMember.get?_cases (hp : s.HasMember name p) (hregular : p.2.Regular)
    (hj : j.Proper) (h : s.read j = .ok n) :
    (n.get? name = none ∧ p.1 = .optional) ∨
      ∃ x m : Json, x.Proper ∧ p.2.read x = .ok m ∧ n.get? name = some m := by
  obtain ⟨ms, rfl⟩ := hp.object h
  have hget := hp.get?_read hj.ordered.sorted h
  cases hvalue : memberValue ms name p with
  | some m =>
    obtain ⟨x, hx, hread⟩ := read_of_memberValue hregular hj hvalue
    exact .inr ⟨x, m, hx, hread, hget.trans hvalue⟩
  | none =>
    refine .inl ⟨hget.trans hvalue, ?_⟩
    have hmissing : missing p = none := (Option.or_eq_none_iff.mp hvalue).2
    cases hpresence : p.1 with
    | optional => rfl
    | required => simp [missing, hpresence] at hmissing

end Shape

end WorkloadEnv
