import WorkloadEnv.Proofs.Decode.Stable
import WorkloadEnv.Proofs.Json.Entries

/-! # Values that are read as they are

    Reading under a shape gives a normal form, and what the shape does not know is
    left out on the way.  Some values come through with all their entries, at
    every path the same; which ones, the shape tells (`Shape.Exact`): records
    hold their members and no others, what is optional is not null, and times are
    written in the one form they are given.

    That these are exactly the values that come through (`faithful`) is shown by
    induction on the shape, with one lemma for each of its constructors.  For a record the two
    sides are compared name by name (`exactAt_iff`). -/

namespace WorkloadEnv

/-- Partners in two pairings at once can be chosen one by one. -/
theorem exists_forall₂_and_iff {α β : Type} {R S : α → β → Prop} {as : List α} :
    (∃ bs, List.Forall₂ R as bs ∧ List.Forall₂ S as bs) ↔ ∀ a ∈ as, ∃ b, R a b ∧ S a b := by
  constructor
  · rintro ⟨bs, hR, hS⟩
    induction hR with
    | nil =>
      intro a ha
      cases ha
    | cons hab _ ih =>
      obtain ⟨hab', hS⟩ := List.forall₂_cons.mp hS
      exact List.forall_mem_cons.mpr ⟨⟨_, hab, hab'⟩, ih hS⟩
  · intro h
    induction as with
    | nil => exact ⟨[], .nil, .nil⟩
    | cons a as ih =>
      obtain ⟨⟨b, hR, hS⟩, hrest⟩ := List.forall_mem_cons.mp h
      obtain ⟨bs, hRs, hSs⟩ := ih hrest
      exact ⟨b :: bs, .cons hR hRs, .cons hS hSs⟩

namespace Shape

open Json (SameEntries)

variable {α : Type} [Source α] {embed : Json → α} {readValue : α → Except DecodeError Json}
variable {fixed : List (String × String)} {members : Members (Presence × Shape)}
variable {s item value : Shape} {p : Presence × Shape} {name : String} {j n : Json}
variable {ms : Members Json} {js : List Json}

/-! ## Being kept -/

/-- Reading succeeds and gives a value with the same entries. -/
def KeptBy (readValue : α → Except DecodeError Json) (embed : Json → α) (j : Json) : Prop :=
  ∃ n, readValue (embed j) = .ok n ∧ j.SameEntries n

omit [Source α] in
theorem keptBy_iff_of_read (h : readValue (embed j) = .ok n) :
    KeptBy readValue embed j ↔ j.SameEntries n := by
  constructor
  · rintro ⟨n', hread, hsame⟩
    obtain rfl : n = n' := Except.ok.inj (h.symm.trans hread)
    exact hsame
  · exact fun hsame => ⟨n, h, hsame⟩

omit [Source α] in
/-- Items are kept one by one. -/
theorem keptBy_items_iff :
    (∃ ns, readItems readValue (js.map embed) = .ok ns ∧ List.Forall₂ SameEntries js ns) ↔
      ∀ j ∈ js, KeptBy readValue embed j := by
  simp only [readItems_iff, List.forall₂_map_left_iff]
  exact exists_forall₂_and_iff

omit [Source α] in
/-- Entries are read one by one and put in their places. -/
theorem readEntries_eq_ok_iff {es : Members α} {acc out : Members Json} :
    readEntries readValue acc (textEntries es) = .ok out ↔
      ∃ ns : Members Json, List.Forall₂ (fun e n => n.1 = e.1 ∧ readValue e.2 = .ok n.2) es ns ∧
        out = Members.putAll acc ns := by
  induction es generalizing acc with
  | nil =>
    constructor
    · intro h
      exact ⟨[], .nil, (Except.ok.inj h).symm⟩
    · rintro ⟨ns, hns, rfl⟩
      cases hns
      rfl
  | cons e es ih =>
    show readEntries readValue acc ((.text e.1, e.2) :: textEntries es) = .ok out ↔ _
    rw [readEntries, bind_eq_ok_iff]
    simp only [ih]
    constructor
    · rintro ⟨n, hn, ns, hns, rfl⟩
      exact ⟨(e.1, n) :: ns, .cons ⟨rfl, hn⟩ hns, rfl⟩
    · rintro ⟨ns, hns, rfl⟩
      obtain ⟨⟨name, n⟩, ns, ⟨rfl, hn⟩, hrest, rfl⟩ := List.forall₂_cons_left_iff.mp hns
      exact ⟨n, hn, ns, hrest, rfl⟩

omit [Source α] in
/-- What is read from entries with distinct names is found under the same names. -/
theorem rel_get?_of_readEntries {es : Members α} {out : Members Json}
    (hn : (es.map Prod.fst).Nodup) (h : readEntries readValue [] (textEntries es) = .ok out)
    (name : String) :
    Option.Rel (fun v n => readValue v = .ok n) (Members.get? name es) (Members.get? name out) := by
  obtain ⟨ns, hns, rfl⟩ := readEntries_eq_ok_iff.mp h
  have hnames := Members.map_fst_eq_of_forall₂ (hns.imp fun _ _ h => h.1)
  rw [Members.get?_putAll_nil (hnames ▸ hn)]
  exact (Members.forall₂_iff_rel_get? hn hnames).mp (hns.imp fun _ _ h => h.2) name

omit [Source α] in
/-- Entries with distinct names are kept one by one. -/
theorem keptBy_entries_iff (hn : (ms.map Prod.fst).Nodup) :
    (∃ out, readEntries readValue [] (textEntries (Members.mapValues embed ms)) = .ok out ∧
        SameEntries (.object ms) (.object out)) ↔
      ∀ m ∈ ms, KeptBy readValue embed m.2 := by
  have hkept : ∀ m ∈ ms, (∃ n : String × Json, (n.1 = m.1 ∧ readValue (embed m.2) = .ok n.2) ∧
      SameEntries m.2 n.2) ↔ KeptBy readValue embed m.2 := by
    intro m _
    constructor
    · rintro ⟨n, ⟨-, hread⟩, hsame⟩
      exact ⟨n.2, hread, hsame⟩
    · rintro ⟨n, hread, hsame⟩
      exact ⟨(m.1, n), ⟨rfl, hread⟩, hsame⟩
  rw [← forall₂_congr hkept, ← exists_forall₂_and_iff]
  -- what was read stands under the names it had, so it is compared one by one
  have hsame : ∀ ns : Members Json,
      List.Forall₂ (fun m n => n.1 = m.1 ∧ readValue (embed m.2) = .ok n.2) ms ns →
      (SameEntries (.object ms) (.object (Members.putAll [] ns)) ↔
        List.Forall₂ (fun m n => SameEntries m.2 n.2) ms ns) := by
    intro ns hns
    have hnames : ns.map Prod.fst = ms.map Prod.fst :=
      Members.map_fst_eq_of_forall₂ (hns.imp fun _ _ h => h.1)
    rw [Json.sameEntries_object_iff, Members.forall₂_iff_rel_get? hn hnames]
    simp only [Members.get?_putAll_nil (hnames ▸ hn)]
  simp only [readEntries_eq_ok_iff, Members.mapValues, List.forall₂_map_left_iff]
  constructor
  · rintro ⟨out, ⟨ns, hns, rfl⟩, h⟩
    exact ⟨ns, hns, (hsame ns hns).mp h⟩
  · rintro ⟨ns, hns, h⟩
    exact ⟨_, ⟨ns, hns, rfl⟩, (hsame ns hns).mpr h⟩

/-! ## Exact values -/

mutual

/-- The value is in the form in which values of the shape are written, whatever the
    order of its members. -/
def Exact : Shape → Json → Prop
  | text, j => ∃ s, j = .text s
  | bool, j => ∃ b, j = .bool b
  | int32, j => ∃ k, j = .int k ∧ (IntRange.signed 32).contains k = true
  | int64, j => ∃ k, j = .int k ∧ (IntRange.signed 64).contains k = true
  | intOrText, j =>
    (∃ k, j = .int k ∧ (IntRange.signed 32).contains k = true) ∨ ∃ s, j = .text s
  | time, j => ∃ t : Instant, t.Valid ∧ j = .text t.text
  | free, j => j.Finite
  | list item, j => ∃ js, j = .list js ∧ ∀ x ∈ js, item.Exact x
  | map value, j => ∃ ms, j = .object ms ∧ ∀ m ∈ ms, value.Exact m.2
  | record _ fixed members, j => ∃ ms, j = .object ms ∧
    (∀ f ∈ fixed, Members.get? f.1 ms = some (.text f.2)) ∧
    (∀ m ∈ ms, m.1 ∈ fixed.map Prod.fst ∨ m.1 ∈ members.map Prod.fst) ∧
    ExactMembers members ms

/-- Each of the members is exact: one that is missing is optional, and one that is
    optional is not null. -/
def ExactMembers : List (String × Presence × Shape) → Members Json → Prop
  | [], _ => True
  | (name, presence, s) :: members, ms =>
    (match Members.get? name ms with
      | none => presence = .optional
      | some x => s.Exact x ∧ (presence = .optional → x.isNull = false)) ∧
    ExactMembers members ms

end

/-- The values that reading keeps are the exact ones. -/
def Faithful (embed : Json → α) (s : Shape) : Prop :=
  ∀ j : Json, j.Distinct → (s.Exact j ↔ KeptBy s.read embed j)

/-! ## Scalars -/

theorem faithful_text (hc : Carries embed) : Faithful embed text := by
  intro j _
  constructor
  · rintro ⟨s, rfl⟩
    exact ⟨.text s, read_text_iff.mpr ⟨s, hc.layer_eq_text_iff.mpr rfl, rfl⟩, .refl _⟩
  · rintro ⟨n, h, -⟩
    obtain ⟨s, hs, -⟩ := read_text_iff.mp h
    exact ⟨s, hc.layer_eq_text_iff.mp hs⟩

theorem faithful_bool (hc : Carries embed) : Faithful embed bool := by
  intro j _
  constructor
  · rintro ⟨b, rfl⟩
    exact ⟨.bool b, read_bool_iff.mpr ⟨b, hc.layer_eq_bool_iff.mpr rfl, rfl⟩, .refl _⟩
  · rintro ⟨n, h, -⟩
    obtain ⟨b, hb, -⟩ := read_bool_iff.mp h
    exact ⟨b, hc.layer_eq_bool_iff.mp hb⟩

/-- An integer is kept if it is in the range. -/
theorem keptBy_readInt_iff (hc : Carries embed) {bits : Nat} {expected : String} :
    KeptBy (readInt bits expected) embed j ↔
      ∃ k, j = .int k ∧ (IntRange.signed bits).contains k = true := by
  constructor
  · rintro ⟨n, h, -⟩
    obtain ⟨k, hk, hrange, -⟩ := readInt_iff.mp h
    exact ⟨k, hc.layer_eq_int_iff.mp hk, hrange⟩
  · rintro ⟨k, rfl, hrange⟩
    have hk := hc.layer_eq_int_iff.mpr (rfl : Json.int k = .int k)
    exact ⟨.int k, readInt_iff.mpr ⟨k, hk, hrange, rfl⟩, .refl _⟩

theorem faithful_int32 (hc : Carries embed) : Faithful embed int32 := by
  intro j _
  simp only [read]
  exact (keptBy_readInt_iff hc).symm

theorem faithful_int64 (hc : Carries embed) : Faithful embed int64 := by
  intro j _
  simp only [read]
  exact (keptBy_readInt_iff hc).symm

theorem faithful_intOrText (hc : Carries embed) : Faithful embed intOrText := by
  intro j _
  constructor
  · rintro (⟨k, rfl, hrange⟩ | ⟨s, rfl⟩)
    · have hk := hc.layer_eq_int_iff.mpr (rfl : Json.int k = .int k)
      exact ⟨.int k, read_intOrText_iff.mpr (.inl ⟨k, hk, hrange, rfl⟩), .refl _⟩
    · have hs := hc.layer_eq_text_iff.mpr (rfl : Json.text s = .text s)
      exact ⟨.text s, read_intOrText_iff.mpr (.inr ⟨s, hs, rfl⟩), .refl _⟩
  · rintro ⟨n, h, -⟩
    rcases read_intOrText_iff.mp h with ⟨k, hk, hrange, -⟩ | ⟨s, hs, -⟩
    · exact .inl ⟨k, hc.layer_eq_int_iff.mp hk, hrange⟩
    · exact .inr ⟨s, hc.layer_eq_text_iff.mp hs⟩

/-- A time is kept if it is written as times are. -/
theorem faithful_time (hc : Carries embed) : Faithful embed time := by
  intro j _
  constructor
  · rintro ⟨t, ht, rfl⟩
    have htext := hc.layer_eq_text_iff.mpr (rfl : Json.text t.text = .text t.text)
    exact ⟨_, read_time_iff.mpr ⟨t.text, t, htext, Instant.parse_text ht, rfl⟩, .refl _⟩
  · rintro ⟨n, h, hsame⟩
    obtain ⟨s, t, -, hparse, rfl⟩ := read_time_iff.mp h
    exact ⟨t, Instant.valid_of_parse hparse, Json.sameEntries_text.mp hsame⟩

/-! ## Lists and maps -/

theorem read_list_embed (hc : Carries embed) (item : Shape) (js : List Json) :
    (list item).read (embed (.list js)) =
      (readItems item.read (js.map embed)).map .list := by
  rw [read, listItems_list hc]
  rfl

theorem faithful_list (hc : Carries embed) (hitem : Faithful embed item) :
    Faithful embed (list item) := by
  intro j hj
  constructor
  · rintro ⟨js, rfl, hall⟩
    have hkept : ∀ x ∈ js, KeptBy item.read embed x :=
      fun x hx => (hitem x (hj.of_mem_list hx)).mp (hall x hx)
    obtain ⟨ns, hns, hsame⟩ := keptBy_items_iff.mpr hkept
    refine ⟨.list ns, ?_, Json.sameEntries_list_iff.mpr hsame⟩
    show (list item).read _ = _
    rw [read_list_embed hc, hns]
    rfl
  · rintro ⟨n, hread, hsame⟩
    -- what is read is a list, so the value is one as well
    have hlist : ∃ ns, n = .list ns := by
      simp only [read, bind_eq_ok_iff] at hread
      obtain ⟨-, -, ns, -, h⟩ := hread
      exact ⟨ns, (Except.ok.inj h).symm⟩
    obtain ⟨ns, rfl⟩ := hlist
    obtain ⟨js, rfl⟩ := hsame.list_of_right
    simp only [read_list_embed hc] at hread
    obtain ⟨ns', hns, h⟩ := map_eq_ok_iff.mp hread
    cases h
    have hkept := keptBy_items_iff.mp ⟨ns, hns, Json.sameEntries_list_iff.mp hsame⟩
    exact ⟨js, rfl, fun x hx => (hitem x (hj.of_mem_list hx)).mpr (hkept x hx)⟩

theorem read_map_embed (hc : Carries embed) (value : Shape) (ms : Members Json) :
    (map value).read (embed (.object ms)) =
      (readEntries value.read [] (textEntries (Members.mapValues embed ms))).map
        .object := by
  rw [read, mapEntries_object hc]
  rfl

theorem faithful_map (hc : Carries embed) (hvalue : Faithful embed value) :
    Faithful embed (map value) := by
  intro j hj
  constructor
  · rintro ⟨ms, rfl, hall⟩
    have hkept : ∀ m ∈ ms, KeptBy value.read embed m.2 :=
      fun m hm => (hvalue m.2 (hj.of_mem_object hm)).mp (hall m hm)
    obtain ⟨out, hout, hsame⟩ := (keptBy_entries_iff hj.nodup).mpr hkept
    refine ⟨.object out, ?_, hsame⟩
    show (map value).read _ = _
    rw [read_map_embed hc, hout]
    rfl
  · rintro ⟨n, hread, hsame⟩
    -- what is read is an object, so the value is one as well
    have hobject : ∃ ns, n = .object ns := by
      simp only [read, bind_eq_ok_iff] at hread
      obtain ⟨-, -, ns, -, h⟩ := hread
      exact ⟨ns, (Except.ok.inj h).symm⟩
    obtain ⟨ns, rfl⟩ := hobject
    obtain ⟨ms, rfl⟩ := hsame.object_of_right
    simp only [read_map_embed hc] at hread
    obtain ⟨out, hout, h⟩ := map_eq_ok_iff.mp hread
    cases h
    have hkept := (keptBy_entries_iff hj.nodup).mp ⟨ns, hout, hsame⟩
    exact ⟨ms, rfl, fun m hm => (hvalue m.2 (hj.of_mem_object hm)).mpr (hkept m hm)⟩

/-! ## Records -/

/-- What is exact for one member of a record, present or not. -/
def ExactMember (p : Presence × Shape) : Option Json → Prop
  | none => p.1 = .optional
  | some x => p.2.Exact x ∧ (p.1 = .optional → x.isNull = false)

theorem exactMembers_iff :
    ExactMembers members ms ↔ ∀ m ∈ members, ExactMember m.2 (Members.get? m.1 ms) := by
  induction members with
  | nil => simp [ExactMembers]
  | cons m members ih =>
    obtain ⟨name, p⟩ := m
    rw [List.forall_mem_cons, ← ih, ExactMembers]
    refine and_congr_left fun _ => ?_
    cases Members.get? name ms <;> exact Iff.rfl

/-- What is exact for a record at one name. -/
def ExactAt (fixed : List (String × String)) (members : Members (Presence × Shape))
    (ms : Members Json) (name : String) : Prop :=
  match Members.get? name fixed, Members.get? name members with
  | some expected, _ => Members.get? name ms = some (.text expected)
  | none, some p => ExactMember p (Members.get? name ms)
  | none, none => Members.get? name ms = none

theorem WellNamed.nodup_fixed (hw : WellNamed fixed members) : (fixed.map Prod.fst).Nodup :=
  (List.pairwise_append.mp hw).1.imp fun hlt => ne_of_lt hlt

/-- A record is exact if it is at every name. -/
theorem exact_record_iff {record : String} (hw : WellNamed fixed members) :
    (Shape.record record fixed members).Exact (.object ms) ↔
      ∀ name, ExactAt fixed members ms name := by
  rw [Exact]
  constructor
  · rintro ⟨ms', hms, hfixed, hknown, hmembers⟩ name
    obtain rfl : ms = ms' := Json.object.inj hms
    unfold ExactAt
    cases hf : Members.get? name fixed with
    | some expected => exact hfixed _ (Members.mem_of_get? hf)
    | none =>
      cases hp : Members.get? name members with
      | some p => exact exactMembers_iff.mp hmembers _ (Members.mem_of_get? hp)
      | none =>
        rw [Members.get?_eq_none_iff_notMem] at hf hp
        refine Members.get?_eq_none_iff.mpr fun m hm hname => ?_
        rcases hknown m hm with h | h
        · exact hf (hname ▸ h)
        · exact hp (hname ▸ h)
  · intro h
    refine ⟨ms, rfl, fun f hf => ?_, fun m hm => ?_, exactMembers_iff.mpr fun m hm => ?_⟩
    · have hat := h f.1
      rwa [ExactAt, Members.get?_of_mem hw.nodup_fixed hf] at hat
    · by_contra hunknown
      rw [not_or] at hunknown
      have hat := h m.1
      rw [ExactAt, Members.get?_eq_none_iff_notMem.mpr hunknown.1,
        Members.get?_eq_none_iff_notMem.mpr hunknown.2] at hat
      exact Members.get?_eq_none_iff.mp hat m hm rfl
    · have hp : Members.get? m.1 members = some m.2 := Members.get?_of_mem hw.sorted.nodup hm
      have hat := h m.1
      rwa [ExactAt, hw.get?_fixed hp, hp] at hat

/-- Null stands for itself only where anything does, and there it is the default. -/
theorem exact_null_iff (s : Shape) : s.Exact .null ↔ s.default = .null := by
  cases s <;> simp [Exact, default, Json.Finite]

/-- A member is exact if its entry reads and the normal form holds the same of it. -/
theorem exactMember_iff (hc : Carries embed) (hp : Faithful embed p.2)
    (hms : (Json.object ms).Distinct) :
    ExactMember p (Members.get? name ms) ↔
      (∀ x, Members.get? name ms = some x →
        Source.absent (embed x) = true ∨ ∃ m, p.2.read (embed x) = .ok m) ∧
      Option.Rel SameEntries (Members.get? name ms)
        (memberValue (Members.mapValues embed ms) name p) := by
  have hget : Members.get? name (Members.mapValues embed ms) = (Members.get? name ms).map embed :=
    Members.get?_mapValues embed ms
  cases hx : Members.get? name ms with
  | none =>
    rw [hx] at hget
    rw [memberValue_of_absent fun v hv => absurd (hget.symm.trans hv) (by simp), missing]
    obtain ⟨presence, s⟩ := p
    cases presence <;> simp [ExactMember]
  | some x =>
    rw [hx] at hget
    simp only [Option.some.injEq, forall_eq']
    cases hnull : x.isNull with
    | true =>
      -- a null entry counts as none, so the default has to be null as well
      have habs : Source.absent (embed x) = true := (hc.absent x).trans hnull
      obtain rfl : x = .null := by
        cases x with
        | null => rfl
        | _ => cases hnull
      rw [memberValue_of_absent fun v hv => Option.some.inj (hget.symm.trans hv) ▸ habs, missing]
      obtain ⟨presence, s⟩ := p
      cases presence with
      | required =>
        have hsame : SameEntries .null s.default ↔ s.default = .null :=
          ⟨fun h => Json.sameEntries_null.mp h.symm, fun h => h ▸ .refl _⟩
        simp [ExactMember, habs, hsame, exact_null_iff]
      | optional => simp [ExactMember, Json.isNull]
    | false =>
      have habs : Source.absent (embed x) = false := (hc.absent x).trans hnull
      rw [ExactMember, hp x (hms.get? hx), habs]
      simp only [hnull, implies_true, and_true, Bool.false_eq_true, false_or]
      constructor
      · rintro ⟨m, hread, hsame⟩
        rw [memberValue_of_read hget habs hread]
        exact ⟨⟨m, hread⟩, .some hsame⟩
      · rintro ⟨⟨m, hread⟩, hrel⟩
        rw [memberValue_of_read hget habs hread] at hrel
        exact ⟨m, hread, Option.rel_some_some.mp hrel⟩

/-- **A record is kept name by name**: the entry of the name reads, and the normal form
    holds the same there. -/
theorem exactAt_iff (hc : Carries embed) (hw : WellNamed fixed members)
    (hall : ∀ m ∈ members, Faithful embed m.2.2) (hms : (Json.object ms).Distinct)
    (name : String) :
    ExactAt fixed members ms name ↔
      (∀ x, Members.get? name ms = some x → EntryReads fixed members (name, embed x)) ∧
      Option.Rel SameEntries (Members.get? name ms) (Members.get? name
        (fixedMembers fixed ++ normalMembers members (Members.mapValues embed ms))) := by
  rw [ExactAt, get?_normalForm hw]
  cases hf : Members.get? name fixed with
  | some expected =>
    simp only [entryReads_fixed hf, Option.map_some, Option.some_or]
    constructor
    · intro hx
      rw [hx]
      refine ⟨fun x hx => ?_, .some (.refl _)⟩
      obtain rfl := Option.some.inj hx
      rw [readFixed, hc.layer]
      exact if_pos rfl
    · rintro ⟨-, hrel⟩
      obtain ⟨x, hx, hsame⟩ := rel_some_right_iff.mp hrel
      rw [hx, Json.sameEntries_text.mp hsame]
  | none =>
    cases hp : Members.get? name members with
    | some p =>
      simp only [entryReads_known hf hp, Option.map_none, Option.none_or, Option.bind_some]
      exact exactMember_iff hc (hall _ (Members.mem_of_get? hp)) hms
    | none =>
      simp only [entryReads_unknown hf hp, implies_true, true_and, Option.map_none,
        Option.none_or, Option.bind_none]
      cases Members.get? name ms <;> simp

theorem faithful_record (hc : Carries embed) {record : String} (hw : WellNamed fixed members)
    (hall : ∀ m ∈ members, Faithful embed m.2.2) :
    Faithful embed (.record record fixed members) := by
  intro j hj
  -- a record is read as an object, and is exact only if it is one
  have hobject : (Shape.record record fixed members).Exact j ∨
      KeptBy (Shape.record record fixed members).read embed j →
      ∃ ms, j = .object ms := by
    rintro (h | ⟨n, hread, hsame⟩)
    · rw [Exact] at h
      obtain ⟨ms, rfl, -⟩ := h
      exact ⟨ms, rfl⟩
    · simp only [read, readRecord, bind_eq_ok_iff] at hread
      obtain ⟨-, -, known, -, h⟩ := hread
      cases h
      exact hsame.object_of_right
  by_cases hms : ∃ ms, j = .object ms
  · obtain ⟨ms, rfl⟩ := hms
    have hnodup : ((Members.mapValues embed ms).map Prod.fst).Nodup := by
      rw [Members.map_fst_mapValues]
      exact hj.nodup
    rw [exact_record_iff hw]
    simp only [exactAt_iff hc hw hall hj, forall_and, ← Json.sameEntries_object_iff]
    have hentries : (∀ name x, Members.get? name ms = some x →
        EntryReads fixed members (name, embed x)) ↔
        ∀ m ∈ Members.mapValues embed ms, EntryReads fixed members m := by
      constructor
      · intro h m hm
        obtain ⟨e, he, rfl⟩ := List.mem_map.mp hm
        exact h e.1 e.2 (Members.get?_of_mem hj.nodup he)
      · intro h name x hx
        exact h _ (List.mem_map_of_mem (Members.mem_of_get? hx))
    rw [hentries]
    simp only [KeptBy, read, readRecord_iff hw hnodup (layer_object hc ms)]
    constructor
    · rintro ⟨hreads, hsame⟩
      exact ⟨_, ⟨hreads, rfl⟩, hsame⟩
    · rintro ⟨n, ⟨hreads, rfl⟩, hsame⟩
      exact ⟨hreads, hsame⟩
  · exact ⟨fun h => absurd (hobject (.inl h)) hms, fun h => absurd (hobject (.inr h)) hms⟩

/-! ## All shapes -/

mutual

/-- **Reading keeps exactly the exact values**, in any format that carries JSON values
    and keeps what is finite of free-form data. -/
theorem faithful (hc : Carries embed) (hfree : Faithful embed free) :
    ∀ s : Shape, s.Regular → Faithful embed s
  | text, _ => faithful_text hc
  | bool, _ => faithful_bool hc
  | int32, _ => faithful_int32 hc
  | int64, _ => faithful_int64 hc
  | intOrText, _ => faithful_intOrText hc
  | time, _ => faithful_time hc
  | free, _ => hfree
  | list item, hs => faithful_list hc (faithful hc hfree item hs)
  | map value, hs => faithful_map hc (faithful hc hfree value hs)
  | record _ _ members, hs => faithful_record hc hs.1 (faithful_members hc hfree members hs.2)

theorem faithful_members (hc : Carries embed) (hfree : Faithful embed free) :
    ∀ members : List (String × Presence × Shape), AllRegular members →
      ∀ m ∈ members, Faithful embed m.2.2
  | [], _ => fun _ hm => by cases hm
  | (_, _, s) :: members, hs => by
    intro m hm
    rcases List.mem_cons.mp hm with rfl | hm
    · exact faithful hc hfree s hs.1
    · exact faithful_members hc hfree members hs.2 m hm

end

end Shape

end WorkloadEnv
