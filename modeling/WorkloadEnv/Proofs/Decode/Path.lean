import WorkloadEnv.Proofs.Decode.Record
import WorkloadEnv.Proofs.Json.Path
import Mathlib.Data.List.Forall2

/-! # Reading along a path

    What reading a JSON value gives at the end of a path, and what it gives
    after a change there.  A record reads its members one by one, so setting a
    member and reading pass each other (`HasMember.read_put`); along a path of
    records, so do changing and reading (`Leads.read_modifyAt`). -/

namespace WorkloadEnv.Shape

variable {fixed : List (String × String)} {members : Members (Presence × Shape)}
variable {s t : Shape} {p : Presence × Shape} {name : String} {path : List String}
variable {ms : Members Json} {j n x m m' : Json}

/-! ## Lists -/

/-- A list reads when each of its items does. -/
theorem readItems_iff {α : Type} {read : α → Except DecodeError Json} {vs : List α}
    {ns : List Json} :
    readItems read vs = .ok ns ↔ List.Forall₂ (fun v n => read v = .ok n) vs ns := by
  induction vs generalizing ns with
  | nil =>
    rw [readItems, List.forall₂_nil_left_iff]
    exact ⟨fun h => (Except.ok.inj h).symm, fun h => by rw [h]⟩
  | cons v vs ih =>
    rw [readItems, bind_eq_ok_iff, List.forall₂_cons_left_iff]
    simp only [bind_eq_ok_iff, ih]
    constructor
    · rintro ⟨n, hn, ns', hns, h⟩
      exact ⟨n, ns', hn, hns, (Except.ok.inj h).symm⟩
    · rintro ⟨n, ns', hn, hns, rfl⟩
      exact ⟨n, hn, ns', hns, rfl⟩

theorem read_list_iff {item : Shape} :
    (list item).read j = .ok n ↔ ∃ js ns, j = .list js ∧ n = .list ns ∧
      List.Forall₂ (fun j n => item.read j = .ok n) js ns := by
  rw [read, bind_eq_ok_iff]
  constructor
  · rintro ⟨js, hjs, h⟩
    obtain ⟨ns, hns, h⟩ := bind_eq_ok_iff.mp h
    have hj : j = .list js := by
      cases j with
      | list js' => exact congrArg Json.list (Except.ok.inj hjs)
      | _ => cases hjs
    exact ⟨js, ns, hj, (Except.ok.inj h).symm, readItems_iff.mp hns⟩
  · rintro ⟨js, ns, rfl, rfl, h⟩
    exact ⟨js, rfl, bind_eq_ok_iff.mpr ⟨ns, readItems_iff.mpr h, rfl⟩⟩

/-! ## Mappings -/

/-- Of the JSON values only objects have entries, and their keys are texts. -/
theorem mapEntries_eq_ok_iff {expected : String} {es : List (Key × Json)} :
    mapEntries expected j = .ok es ↔ ∃ ms, j = .object ms ∧ es = textEntries ms := by
  constructor
  · intro h
    cases j with
    | object ms => exact ⟨ms, rfl, (Except.ok.inj h).symm⟩
    | _ => cases h
  · rintro ⟨ms, rfl, rfl⟩
    rfl

theorem read_map_iff {value : Shape} :
    (map value).read j = .ok n ↔ ∃ ms out, j = .object ms ∧ n = .object out ∧
      readEntries (value.read ·) [] (textEntries ms) = .ok out := by
  simp only [read, bind_eq_ok_iff, mapEntries_eq_ok_iff]
  constructor
  · rintro ⟨_, ⟨ms, rfl, rfl⟩, out, hout, h⟩
    exact ⟨ms, out, rfl, (Except.ok.inj h).symm, hout⟩
  · rintro ⟨ms, out, rfl, rfl, hout⟩
    exact ⟨_, ⟨ms, rfl, rfl⟩, out, hout, rfl⟩

/-! ## Records -/

/-- What reads as a record is an object. -/
theorem object_of_read_record {record : String}
    (h : (Shape.record record fixed members).read j = .ok n) : ∃ ms, j = .object ms := by
  rw [read, readRecord, bind_eq_ok_iff] at h
  obtain ⟨entries, hentries, -⟩ := h
  obtain ⟨ms, rfl, -⟩ := mapEntries_eq_ok_iff.mp hentries
  exact ⟨ms, rfl⟩

theorem read_record_iff {record : String} (hw : WellNamed fixed members)
    (hs : Members.Sorted ms) :
    (Shape.record record fixed members).read (Json.object ms) = .ok n ↔
      (∀ m ∈ ms, EntryReads fixed members m) ∧
        n = .object (fixedMembers fixed ++ normalMembers members ms) := by
  rw [read]
  exact readRecord_iff hw hs.nodup rfl

/-- A record that reads still does when some of its entries are left out. -/
theorem read_record_of_subset {record : String} {ms' : Members Json}
    (h : (Shape.record record fixed members).read (Json.object ms) = .ok n)
    (hsub : ∀ e ∈ ms', e ∈ ms) :
    ∃ n', (Shape.record record fixed members).read (Json.object ms') = .ok n' := by
  rw [read, readRecord, bind_eq_ok_iff] at h
  obtain ⟨_, ⟨⟩, h⟩ := h
  obtain ⟨known, hknown, -⟩ := bind_eq_ok_iff.mp h
  have hall : ∀ e ∈ ms, EntryReads fixed members e :=
    (exists_readKnown_iff []).mp ⟨known, hknown⟩
  have hall' : ∀ e ∈ ms', EntryReads fixed members e := fun e he => hall e (hsub e he)
  obtain ⟨known', hknown'⟩ := (exists_readKnown_iff []).mpr hall'
  rw [read, readRecord]
  exact ⟨_, bind_eq_ok_iff.mpr ⟨_, rfl, bind_eq_ok_iff.mpr ⟨known', hknown', rfl⟩⟩⟩

/-! ## One member of a record -/

/-- The shape is a record with increasing names that has a member of that name. -/
def HasMember (s : Shape) (name : String) (p : Presence × Shape) : Prop :=
  ∃ record fixed members, s = .record record fixed members ∧ WellNamed fixed members ∧
    Members.get? name members = some p

theorem HasMember.object (hp : s.HasMember name p) (h : s.read j = .ok n) :
    ∃ ms, j = .object ms := by
  obtain ⟨record, fixed, members, rfl, -, -⟩ := hp
  exact object_of_read_record h

theorem HasMember.sorted (hp : s.HasMember name p) (hs : Members.Sorted ms)
    (h : s.read (Json.object ms) = .ok n) : ∃ ns, n = .object ns ∧ Members.Sorted ns := by
  obtain ⟨record, fixed, members, rfl, hw, -⟩ := hp
  exact ⟨_, ((read_record_iff hw hs).mp h).2, sorted_normalForm hw⟩

/-- A member that is present has its shape. -/
theorem HasMember.read_get? (hp : s.HasMember name p) (hs : Members.Sorted ms)
    (h : s.read (Json.object ms) = .ok n) (hx : Members.get? name ms = some x)
    (hnull : x.isNull = false) : ∃ m, p.2.read x = .ok m := by
  obtain ⟨record, fixed, members, rfl, hw, hp⟩ := hp
  have hentry := ((read_record_iff hw hs).mp h).1 _ (Members.mem_of_get? hx)
  rcases (entryReads_known (hw.get?_fixed hp) hp).mp hentry with habs | hm
  · exact absurd (hnull.symm.trans habs) (by decide)
  · exact hm

/-- The normal form holds of a member what the entry of its name was read as. -/
theorem HasMember.get?_read (hp : s.HasMember name p) (hs : Members.Sorted ms)
    (h : s.read (Json.object ms) = .ok n) : n.get? name = memberValue ms name p := by
  obtain ⟨record, fixed, members, rfl, hw, hp⟩ := hp
  obtain ⟨-, rfl⟩ := (read_record_iff hw hs).mp h
  rw [Json.get?_object, get?_normalForm hw, hw.get?_fixed hp, hp]
  rfl

theorem HasMember.get?_read_of_present (hp : s.HasMember name p) (hs : Members.Sorted ms)
    (h : s.read (Json.object ms) = .ok n) (hx : Members.get? name ms = some x)
    (hnull : x.isNull = false) : ∃ m, p.2.read x = .ok m ∧ n.get? name = some m := by
  obtain ⟨m, hm⟩ := hp.read_get? hs h hx hnull
  exact ⟨m, hm, (hp.get?_read hs h).trans (memberValue_of_read hx hnull hm)⟩

theorem HasMember.get?_read_of_absent (hp : s.HasMember name p) (hs : Members.Sorted ms)
    (h : s.read (Json.object ms) = .ok n)
    (habs : ∀ x, Members.get? name ms = some x → x.isNull = true) : n.get? name = missing p :=
  (hp.get?_read hs h).trans (memberValue_of_absent habs)

/-- A member is read from a value that is present, or it is missing in the normal form. -/
theorem HasMember.read_cases (hp : s.HasMember name p) (hs : Members.Sorted ms)
    (h : s.read (Json.object ms) = .ok n) :
    (∃ x m, Members.get? name ms = some x ∧ x.isNull = false ∧ p.2.read x = .ok m ∧
      n.get? name = some m) ∨
    (∀ x, Members.get? name ms = some x → x.isNull = true) ∧ n.get? name = missing p := by
  rcases Json.present_or_absent (Members.get? name ms) with ⟨x, hx, hnull⟩ | habs
  · obtain ⟨m, hm, hget⟩ := hp.get?_read_of_present hs h hx hnull
    exact .inl ⟨x, m, hx, hnull, hm, hget⟩
  · exact .inr ⟨habs, hp.get?_read_of_absent hs h habs⟩

/-- **Setting a member and reading pass each other.** -/
theorem HasMember.read_put (hp : s.HasMember name p) (hs : Members.Sorted ms)
    (h : s.read (Json.object ms) = .ok n) (hnull : x.isNull = false) (hm : p.2.read x = .ok m) :
    s.read (Json.object (Members.put name x ms)) =
      .ok (.object (Members.put name m n.members)) := by
  obtain ⟨record, fixed, members, rfl, hw, hp⟩ := hp
  obtain ⟨hentries, rfl⟩ := (read_record_iff hw hs).mp h
  refine (read_record_iff hw hs.put).mpr ⟨fun e he => ?_, congrArg Json.object ?_⟩
  · rcases Members.mem_put he with rfl | he
    · exact (entryReads_known (hw.get?_fixed hp) hp).mpr (.inr ⟨m, hm⟩)
    · exact hentries e he
  · -- both sides are sorted, so it is enough to look each name up
    refine Members.Sorted.ext (sorted_normalForm hw).put (sorted_normalForm hw) fun other => ?_
    rw [get?_normalForm hw]
    show Members.get? other (Members.put name m (fixedMembers fixed ++ normalMembers members ms)) = _
    by_cases ho : other = name
    · rw [ho, Members.get?_put_self, hw.get?_fixed hp, hp, Option.bind_some,
        memberValue_of_read (Members.get?_put_self ms) hnull hm]
      rfl
    · rw [Members.get?_put_ne ho, get?_normalForm hw]
      have hvalue : memberValue (Members.put name x ms) other = memberValue ms other := by
        funext q
        rw [memberValue, memberValue, presentValue, presentValue, Members.get?_put_ne ho]
      rw [hvalue]

/-! ## Along a path -/

/-- The shape leads to another one along a path of members, and where a member is
    missing, its default does not lead further. -/
def Leads : Shape → List String → Shape → Prop
  | s, [], t => s = t
  | s, name :: path, t => ∃ p, s.HasMember name p ∧ (missing p).bind (Json.at? path) = none ∧
      p.2.Leads path t

/-- What is present at the end of the path has the shape the path leads to. -/
theorem Leads.read_at? (hl : s.Leads path t) (hj : j.SortedAlong path) (h : s.read j = .ok n)
    (hx : j.at? path = some x) (hnull : x.isNull = false) :
    ∃ m, t.read x = .ok m ∧ n.at? path = some m := by
  induction path generalizing s j n with
  | nil =>
    obtain rfl : s = t := hl
    cases hx
    exact ⟨n, h, rfl⟩
  | cons name path ih =>
    obtain ⟨p, hp, -, hl⟩ := hl
    obtain ⟨ms, rfl⟩ := hp.object h
    obtain ⟨hs, hrest⟩ := Json.sortedAlong_object.mp hj
    obtain ⟨y, (hy : Members.get? name ms = some y), hx⟩ :=
      Option.bind_eq_some_iff.mp (Json.at?_cons ▸ hx)
    -- on the way to a present value nothing is null
    have hnully := Json.isNull_eq_false_of_at? hx hnull
    obtain ⟨ny, hny, hget⟩ := hp.get?_read_of_present hs h hy hnully
    obtain ⟨m, hm, hat⟩ := ih hl (hrest y hy) hny hx
    refine ⟨m, hm, ?_⟩
    rw [Json.at?_cons, hget]
    exact hat

/-- Where nothing is present at the end of the path, the normal form has nothing there. -/
theorem Leads.at?_eq_none (hl : s.Leads (name :: path) t) (hj : j.SortedAlong (name :: path))
    (h : s.read j = .ok n) (habs : ∀ x, j.at? (name :: path) = some x → x.isNull = true) :
    n.at? (name :: path) = none := by
  induction path generalizing s j n name with
  | nil =>
    obtain ⟨p, hp, hmissing, -⟩ := hl
    obtain ⟨ms, rfl⟩ := hp.object h
    have habs' : ∀ x, Members.get? name ms = some x → x.isNull = true := by
      intro x hx
      exact habs x (by rw [Json.at?_cons, Json.get?_object, hx]; rfl)
    rw [Json.at?_cons, hp.get?_read_of_absent hj.1 h habs']
    exact hmissing
  | cons next path ih =>
    obtain ⟨p, hp, hmissing, hl⟩ := hl
    obtain ⟨ms, rfl⟩ := hp.object h
    obtain ⟨hs, hrest⟩ := Json.sortedAlong_object.mp hj
    rw [Json.at?_cons]
    rcases hp.read_cases hs h with ⟨y, ny, hy, -, hny, hget⟩ | ⟨-, hget⟩
    · -- the path goes on below a value that is present
      rw [hget]
      refine ih hl (hrest y hy) hny fun x hx => habs x ?_
      rw [Json.at?_cons, Json.get?_object, hy]
      exact hx
    · rw [hget]
      exact hmissing

/-- **Changing the end of a path and reading pass each other.** -/
theorem Leads.read_modifyAt {f : Json → Json} (hl : s.Leads path t) (hj : j.SortedAlong path)
    (h : s.read j = .ok n) (hx : j.at? path = some x) (hnull : x.isNull = false)
    (hnull' : (f x).isNull = false) (hm' : t.read (f x) = .ok m') :
    s.read (j.modifyAt f path) = .ok (n.modifyAt (fun _ => m') path) := by
  induction path generalizing s j n with
  | nil =>
    obtain rfl : s = t := hl
    cases hx
    simpa using hm'
  | cons name path ih =>
    obtain ⟨p, hp, -, hl⟩ := hl
    obtain ⟨ms, rfl⟩ := hp.object h
    obtain ⟨hs, hrest⟩ := Json.sortedAlong_object.mp hj
    obtain ⟨ns, rfl, hns⟩ := hp.sorted hs h
    obtain ⟨y, (hy : Members.get? name ms = some y), hx⟩ :=
      Option.bind_eq_some_iff.mp (Json.at?_cons ▸ hx)
    have hnully := Json.isNull_eq_false_of_at? hx hnull
    obtain ⟨ny, hny, hget⟩ := hp.get?_read_of_present hs h hy hnully
    have hny' := ih hl (hrest y hy) hny hx
    have hnully' := Json.isNull_modifyAt hx hnull'
    -- changing the one member of the name is setting it, on both sides
    rw [Json.modifyAt_object, Json.modifyAt_object, hs.modify_eq_put hy, hns.modify_eq_put hget]
    exact hp.read_put hs h hnully' hny'

end WorkloadEnv.Shape
