import WorkloadEnv.Proofs.Decode.Path
import WorkloadEnv.Proofs.Decode.Scalar
import WorkloadEnv.Proofs.Json.Finite
import WorkloadEnv.Proofs.Time.RoundTrip

/-! # Reading a normal form again

    What was read from JSON is in normal form, and reading that form gives it
    again, from JSON as from any other format that carries JSON values
    (`Shape.stable`).  So a value is written the same however often it is read
    back.

    The induction is on the shape, with one lemma for each of its constructors.
    Two of them have an argument of their own: a time is written in the one form
    that reads as itself, and of a record each member is either one that was read,
    or the default of one that is missing, which is missing again where it is
    null. -/

namespace WorkloadEnv

/-- What stands on the right of a pairing has a partner on the left. -/
theorem exists_of_mem_right {α β : Type} {R : α → β → Prop} {as : List α} {bs : List β}
    (h : List.Forall₂ R as bs) {b : β} (hb : b ∈ bs) : ∃ a ∈ as, R a b := by
  induction h with
  | nil => cases hb
  | cons hab _ ih =>
    rcases List.mem_cons.mp hb with rfl | hb
    · exact ⟨_, List.mem_cons_self, hab⟩
    · obtain ⟨a, ha, hab⟩ := ih hb
      exact ⟨a, List.mem_cons_of_mem _ ha, hab⟩

/-! ## Formats that carry JSON values -/

/-- One level of a value, with what is below it carried over. -/
def Layer.carry {α β : Type} (f : α → β) : Layer α → Layer β
  | null => .null
  | bool b => .bool b
  | int n => .int n
  | float x => .float x
  | text s => .text s
  | list items => .list (items.map f)
  | map entries => .map (entries.map fun e => (e.1, f e.2))

/-- Each JSON value has a counterpart in the format, which looks the same on each
    level and is the same when it is kept as data. -/
structure Carries {α : Type} [Source α] (embed : Json → α) : Prop where
  layer : ∀ j, Source.layer (embed j) = j.layer.carry embed
  absent : ∀ j, Source.absent (embed j) = j.isNull
  keepable : ∀ j, Source.keepable (embed j) = .ok ()
  free : ∀ j : Json, j.Ordered → j.Finite → Source.free (embed j) = .ok j

namespace Carries

variable {α : Type} [Source α] {embed : Json → α} {j : Json}

/-- Only the counterpart of a text is a text; so it is with the other scalars. -/
theorem layer_eq_text_iff (hc : Carries embed) {s : String} :
    Source.layer (embed j) = .text s ↔ j = .text s := by
  rw [hc.layer]
  cases j <;> simp [Json.layer, Layer.carry]

theorem layer_eq_bool_iff (hc : Carries embed) {b : Bool} :
    Source.layer (embed j) = .bool b ↔ j = .bool b := by
  rw [hc.layer]
  cases j <;> simp [Json.layer, Layer.carry]

theorem layer_eq_int_iff (hc : Carries embed) {k : Int} :
    Source.layer (embed j) = .int k ↔ j = .int k := by
  rw [hc.layer]
  cases j <;> simp [Json.layer, Layer.carry]

end Carries

namespace Members

variable {α β : Type} {name : String} {f : α → β}

/-- The members with their values carried over. -/
def mapValues (f : α → β) (ms : Members α) : Members β := ms.map fun m => (m.1, f m.2)

theorem map_fst_mapValues (f : α → β) (ms : Members α) :
    (mapValues f ms).map Prod.fst = ms.map Prod.fst := by
  simp [mapValues, Function.comp_def]

theorem get?_mapValues (f : α → β) (ms : Members α) :
    get? name (mapValues f ms) = (get? name ms).map f := by
  induction ms with
  | nil => rfl
  | cons m ms ih =>
    show get? name ((m.1, f m.2) :: mapValues f ms) = _
    rw [get?_cons, get?_cons, ih]
    split <;> rfl

/-- Sorted members that are set one after the other stand as they were. -/
theorem Sorted.putAll_nil {ms : Members α} (h : Sorted ms) : Members.putAll [] ms = ms := by
  have hempty : Sorted ([] : Members α) := List.Pairwise.nil
  refine Sorted.ext hempty.putAll h fun name => ?_
  rw [get?_putAll h.nodup, get?_nil, Option.or_none]

end Members

namespace Shape

variable {α : Type} [Source α] {embed : Json → α}
variable {fixed : List (String × String)} {members : Members (Presence × Shape)}
variable {s item value : Shape} {p : Presence × Shape} {name : String} {j n : Json}
variable {ms : Members Json}

/-- What the shape gives for a JSON value, it gives again for its counterpart in the
    format; and it gives null for null alone. -/
def Stable (embed : Json → α) (s : Shape) : Prop :=
  ∀ j n : Json, j.Ordered → j.Finite → s.read j = .ok n →
    s.read (embed n) = .ok n ∧ (j.isNull = false → n.isNull = false)

/-! ## Scalars -/

theorem stable_text (hc : Carries embed) : Stable embed text := by
  intro j n _ _ h
  obtain ⟨s, -, rfl⟩ := read_text_iff.mp h
  exact ⟨read_text_iff.mpr ⟨s, hc.layer_eq_text_iff.mpr rfl, rfl⟩, fun _ => rfl⟩

theorem stable_bool (hc : Carries embed) : Stable embed bool := by
  intro j n _ _ h
  obtain ⟨b, -, rfl⟩ := read_bool_iff.mp h
  exact ⟨read_bool_iff.mpr ⟨b, hc.layer_eq_bool_iff.mpr rfl, rfl⟩, fun _ => rfl⟩

/-- An integer in the range is read as it is, in either format. -/
theorem readInt_stable (hc : Carries embed) {bits : Nat} {expected : String}
    (h : readInt bits expected j = .ok n) :
    readInt bits expected (embed n) = .ok n ∧ (j.isNull = false → n.isNull = false) := by
  obtain ⟨k, -, hrange, rfl⟩ := readInt_iff.mp h
  exact ⟨readInt_iff.mpr ⟨k, hc.layer_eq_int_iff.mpr rfl, hrange, rfl⟩, fun _ => rfl⟩

theorem stable_int32 (hc : Carries embed) : Stable embed int32 := by
  intro j n _ _ h
  rw [read] at h ⊢
  exact readInt_stable hc h

theorem stable_int64 (hc : Carries embed) : Stable embed int64 := by
  intro j n _ _ h
  rw [read] at h ⊢
  exact readInt_stable hc h

theorem stable_intOrText (hc : Carries embed) : Stable embed intOrText := by
  intro j n _ _ h
  rcases read_intOrText_iff.mp h with ⟨k, -, hrange, rfl⟩ | ⟨s, -, rfl⟩
  · have hk := hc.layer_eq_int_iff.mpr (rfl : Json.int k = .int k)
    exact ⟨read_intOrText_iff.mpr (.inl ⟨k, hk, hrange, rfl⟩), fun _ => rfl⟩
  · have hs := hc.layer_eq_text_iff.mpr (rfl : Json.text s = .text s)
    exact ⟨read_intOrText_iff.mpr (.inr ⟨s, hs, rfl⟩), fun _ => rfl⟩

/-- A time is written in the one form that reads as itself. -/
theorem stable_time (hc : Carries embed) : Stable embed time := by
  intro j n _ _ h
  obtain ⟨s, t, -, hparse, rfl⟩ := read_time_iff.mp h
  have hagain := Instant.parse_text_of_parse hparse
  exact ⟨read_time_iff.mpr ⟨t.text, t, hc.layer_eq_text_iff.mpr rfl, hagain, rfl⟩, fun _ => rfl⟩

theorem stable_free (hc : Carries embed) : Stable embed free := by
  intro j n hordered hfinite h
  rw [read] at h ⊢
  obtain rfl : j = n := Except.ok.inj h
  exact ⟨hc.free j hordered hfinite, id⟩

/-! ## Lists -/

/-- The items of the counterpart of a list are the counterparts of its items. -/
theorem listItems_list (hc : Carries embed) (js : List Json) :
    listItems (embed (.list js)) = .ok (js.map embed) := by
  rw [listItems, hc.layer]
  rfl

theorem stable_list (hc : Carries embed) (hitem : Stable embed item) :
    Stable embed (list item) := by
  intro j n hordered hfinite h
  obtain ⟨js, ns, rfl, rfl, hall⟩ := read_list_iff.mp h
  -- each item of the normal form was read from an item, and is read again
  have hagain : List.Forall₂ (fun v n => item.read v = .ok n) (ns.map embed) ns := by
    rw [List.forall₂_map_left_iff, List.forall₂_same]
    intro n hn
    obtain ⟨j, hj, hread⟩ := exists_of_mem_right hall hn
    exact (hitem j n (Json.ordered_list_iff.mp hordered j hj)
      (Json.finite_list_iff.mp hfinite j hj) hread).1
  have hitems := listItems_list hc ns
  have hlist : (list item).read (embed (.list ns)) = .ok (.list ns) := by
    rw [read]
    exact bind_eq_ok_iff.mpr ⟨_, hitems, bind_eq_ok_iff.mpr ⟨ns, readItems_iff.mpr hagain, rfl⟩⟩
  exact ⟨hlist, fun _ => rfl⟩

/-! ## Maps -/

/-- The counterpart of an object is a mapping of the counterparts. -/
theorem layer_object (hc : Carries embed) (ms : Members Json) :
    Source.layer (embed (.object ms)) = .map (textEntries (Members.mapValues embed ms)) := by
  rw [hc.layer]
  simp [Json.layer, Layer.carry, textEntries, Members.mapValues, Function.comp_def]

/-- The entries of the counterpart of an object are those of the object. -/
theorem mapEntries_object (hc : Carries embed) (expected : String) (ms : Members Json) :
    mapEntries expected (embed (.object ms)) =
      .ok (textEntries (Members.mapValues embed ms)) := by
  rw [mapEntries, layer_object hc]

/-- What is collected was there or was read from an entry of the name, and is sorted. -/
theorem of_readEntries {readValue : Json → Except DecodeError Json} {acc out : Members Json}
    (h : readEntries readValue acc (textEntries ms) = .ok out) (hacc : Members.Sorted acc) :
    Members.Sorted out ∧ ∀ m ∈ out, m ∈ acc ∨ ∃ x, (m.1, x) ∈ ms ∧ readValue x = .ok m.2 := by
  induction ms generalizing acc with
  | nil =>
    cases h
    exact ⟨hacc, fun m hm => .inl hm⟩
  | cons e ms ih =>
    obtain ⟨name, x⟩ := e
    change readEntries readValue acc ((.text name, x) :: textEntries ms) = .ok out at h
    rw [readEntries] at h
    obtain ⟨y, hy, h⟩ := bind_eq_ok_iff.mp h
    obtain ⟨hsorted, hall⟩ := ih h hacc.put
    refine ⟨hsorted, fun m hm => ?_⟩
    rcases hall m hm with hm | ⟨x', hx', hread⟩
    · rcases Members.mem_put hm with rfl | hm
      · exact .inr ⟨x, List.mem_cons_self, hy⟩
      · exact .inl hm
    · exact .inr ⟨x', List.mem_cons_of_mem _ hx', hread⟩

omit [Source α] in
/-- Values that read as themselves are collected as they are. -/
theorem readEntries_mapValues {readValue : α → Except DecodeError Json} {out : Members Json}
    (hall : ∀ m ∈ out, readValue (embed m.2) = .ok m.2) (acc : Members Json) :
    readEntries readValue acc (textEntries (Members.mapValues embed out)) =
      .ok (Members.putAll acc out) := by
  induction out generalizing acc with
  | nil => rfl
  | cons m out ih =>
    have hhead := hall m List.mem_cons_self
    have htail := ih fun m hm => hall m (List.mem_cons_of_mem _ hm)
    show readEntries readValue acc
      ((.text m.1, embed m.2) :: textEntries (Members.mapValues embed out)) = _
    rw [readEntries, hhead]
    exact htail _

theorem stable_map (hc : Carries embed) (hvalue : Stable embed value) :
    Stable embed (map value) := by
  intro j n hordered hfinite h
  obtain ⟨ms, out, rfl, rfl, hout⟩ := read_map_iff.mp h
  obtain ⟨-, hordered⟩ := Json.ordered_object_iff.mp hordered
  have hfinite := Json.finite_object_iff.mp hfinite
  obtain ⟨hsorted, hfrom⟩ := of_readEntries hout List.Pairwise.nil
  have hagain : ∀ m ∈ out, value.read (embed m.2) = .ok m.2 := by
    intro m hm
    rcases hfrom m hm with hm | ⟨x, hx, hread⟩
    · cases hm
    · exact (hvalue x m.2 (hordered _ hx) (hfinite _ hx) hread).1
  have hmap := mapEntries_object hc "a map" out
  have hcollect : readEntries (value.read ·) [] (textEntries (Members.mapValues embed out)) =
      .ok out := by
    rw [readEntries_mapValues hagain, hsorted.putAll_nil]
  rw [read]
  exact ⟨bind_eq_ok_iff.mpr ⟨_, hmap, bind_eq_ok_iff.mpr ⟨out, hcollect, rfl⟩⟩, id⟩

/-! ## Records -/

mutual

/-- In every record of the shape the names are increasing, the fixed ones first. -/
def Regular : Shape → Prop
  | list item => item.Regular
  | map value => value.Regular
  | record _ fixed members => WellNamed fixed members ∧ AllRegular members
  | _ => True

/-- The shape of every member is regular. -/
def AllRegular : List (String × Presence × Shape) → Prop
  | [] => True
  | (_, _, s) :: members => s.Regular ∧ AllRegular members

end

mutual

/-- Whether a shape is regular can be told by looking at it. -/
def decRegular : (s : Shape) → Decidable s.Regular
  | text | bool | int32 | int64 | intOrText | time | free => isTrue trivial
  | list item => decRegular item
  | map value => decRegular value
  | record _ fixed members =>
    let : Decidable (AllRegular members) := decAllRegular members
    inferInstanceAs (Decidable (WellNamed fixed members ∧ AllRegular members))

def decAllRegular : (members : List (String × Presence × Shape)) →
    Decidable (AllRegular members)
  | [] => isTrue trivial
  | (_, _, s) :: members =>
    let : Decidable s.Regular := decRegular s
    let : Decidable (AllRegular members) := decAllRegular members
    inferInstanceAs (Decidable (s.Regular ∧ AllRegular members))

end

instance : DecidablePred Regular := decRegular

/-- Without any entry a record has its defaults. -/
theorem normalMembers_nil (members : Members (Presence × Shape)) :
    normalMembers members ([] : Members Json) = defaults members := by
  induction members with
  | nil => rfl
  | cons m members ih =>
    obtain ⟨name, presence, s⟩ := m
    unfold normalMembers at ih ⊢
    rw [List.filterMap_cons, ih]
    cases presence <;> rfl

/-- The default of a shape is itself read from some value. -/
theorem exists_read_default (hs : s.Regular) :
    ∃ j : Json, j.Ordered ∧ j.Finite ∧ s.read j = .ok s.default := by
  cases s with
  | text => exact ⟨.text "", trivial, trivial, rfl⟩
  | bool => exact ⟨.bool false, trivial, trivial, rfl⟩
  | int32 => exact ⟨.int 0, trivial, trivial, rfl⟩
  | int64 => exact ⟨.int 0, trivial, trivial, rfl⟩
  | intOrText => exact ⟨.int 0, trivial, trivial, rfl⟩
  | free => exact ⟨.null, trivial, trivial, rfl⟩
  | time =>
    -- the beginning of 1970 is written as the default says
    have htext : Instant.text ⟨⟨1970, 1, 1⟩, 0, 0, 0⟩ = defaultTime := rfl
    have hparse : Instant.parse defaultTime = .ok ⟨⟨1970, 1, 1⟩, 0, 0, 0⟩ :=
      htext ▸ Instant.parse_text (by decide)
    refine ⟨.text defaultTime, trivial, trivial, ?_⟩
    rw [read, readTime]
    simp only [Source.layer, Json.layer, hparse, htext]
    rfl
  | list item => exact ⟨.list [], trivial, trivial, rfl⟩
  | map value => exact ⟨.object [], ⟨List.Pairwise.nil, trivial⟩, trivial, rfl⟩
  | record name fixed members =>
    refine ⟨.object [], ⟨List.Pairwise.nil, trivial⟩, trivial, ?_⟩
    refine (read_record_iff hs.1 List.Pairwise.nil).mpr ⟨fun m hm => ?_, ?_⟩
    · cases hm
    · rw [normalMembers_nil, default]

/-- **A member of a normal form stands for itself.**  One that was read is read again;
    the default of a missing one is read as well, or is null and so missing again. -/
theorem memberValue_again (hc : Carries embed) (hp : Stable embed p.2) (hregular : p.2.Regular)
    (hordered : (Json.object ms).Ordered) (hfinite : (Json.object ms).Finite)
    (hreads : ∀ x, Members.get? name ms = some x → x.isNull = false → ∃ m, p.2.read x = .ok m)
    {ns : Members Json} (hns : Members.get? name ns = memberValue ms name p) :
    memberValue (Members.mapValues embed ns) name p = Members.get? name ns ∧
      ∀ y, Members.get? name ns = some y →
        Source.absent (embed y) = true ∨ ∃ m, p.2.read (embed y) = .ok m := by
  have hget : Members.get? name (Members.mapValues embed ns) = (Members.get? name ns).map embed :=
    Members.get?_mapValues embed ns
  -- a value that is not null and reads as itself
  have hagain : ∀ y, Members.get? name ns = some y → y.isNull = false →
      p.2.read (embed y) = .ok y →
      memberValue (Members.mapValues embed ns) name p = Members.get? name ns := by
    intro y hy hnull hread
    rw [hy] at hget ⊢
    exact memberValue_of_read hget ((hc.absent y).trans hnull) hread
  rcases Json.present_or_absent (Members.get? name ms) with ⟨x, hx, hnull⟩ | habs
  · obtain ⟨m, hm⟩ := hreads x hx hnull
    have hx' : Json.get? name (.object ms) = some x := hx
    obtain ⟨hread, hnullm⟩ := hp x m (hordered.get? hx') (hfinite.get? hx') hm
    rw [memberValue_of_read hx hnull hm] at hns
    refine ⟨hagain m hns (hnullm hnull) hread, fun y hy => .inr ⟨m, ?_⟩⟩
    obtain rfl : m = y := Option.some.inj (hns.symm.trans hy)
    exact hread
  · rw [memberValue_of_absent habs] at hns
    cases hmissing : missing p with
    | none =>
      rw [hmissing] at hns
      rw [hns] at hget ⊢
      refine ⟨?_, fun y hy => by cases hy⟩
      rw [memberValue_of_absent fun v hv => absurd (hget.symm.trans hv) (by simp), hmissing]
    | some y =>
      have hy : y = p.2.default := by
        unfold missing at hmissing
        split at hmissing
        · exact (Option.some.inj hmissing).symm
        · cases hmissing
      rw [hmissing] at hns
      cases hnull : y.isNull with
      | true =>
        have habsent : Source.absent (embed y) = true := (hc.absent y).trans hnull
        rw [hns] at hget ⊢
        refine ⟨?_, fun y' hy' => .inl (Option.some.inj hy' ▸ habsent)⟩
        rw [memberValue_of_absent fun v hv => ?_, hmissing]
        rw [← Option.some.inj (hget.symm.trans hv)]
        exact habsent
      | false =>
        obtain ⟨j, hj, hj', hread⟩ := exists_read_default hregular
        have hdefault : p.2.read (embed y) = .ok y := hy ▸ (hp j _ hj hj' hread).1
        refine ⟨hagain y hns hnull hdefault, fun y' hy' => .inr ⟨y, ?_⟩⟩
        obtain rfl : y = y' := Option.some.inj (hns.symm.trans hy')
        exact hdefault

theorem stable_record (hc : Carries embed) {record : String} (hw : WellNamed fixed members)
    (hall : ∀ m ∈ members, Stable embed m.2.2 ∧ m.2.2.Regular) :
    Stable embed (.record record fixed members) := by
  intro j n hordered hfinite h
  obtain ⟨ms, rfl⟩ := object_of_read_record h
  obtain ⟨hentries, rfl⟩ := (read_record_iff hw hordered.sorted).mp h
  refine ⟨?_, fun _ => rfl⟩
  generalize hns : fixedMembers fixed ++ normalMembers members ms = ns
  have hsorted : Members.Sorted ns := hns ▸ sorted_normalForm hw
  have hnodup : ((Members.mapValues embed ns).map Prod.fst).Nodup := by
    rw [Members.map_fst_mapValues]
    exact hsorted.nodup
  have hget : ∀ name, Members.get? name ns = ((Members.get? name fixed).map Json.text).or
      ((Members.get? name members).bind (memberValue ms name)) := by
    intro name
    rw [← hns, get?_normalForm hw]
  -- what is known of each member of the record
  have hmember : ∀ name p, Members.get? name members = some p →
      memberValue (Members.mapValues embed ns) name p = Members.get? name ns ∧
        ∀ y, Members.get? name ns = some y →
          Source.absent (embed y) = true ∨ ∃ m, p.2.read (embed y) = .ok m := by
    intro name p hp
    obtain ⟨hstable, hregular⟩ := hall _ (Members.mem_of_get? hp)
    refine memberValue_again hc hstable hregular hordered hfinite (fun x hx hnull => ?_) ?_
    · have hentry := hentries _ (Members.mem_of_get? hx)
      rcases (entryReads_known (hw.get?_fixed hp) hp).mp hentry with habs | hm
      · exact absurd (hnull.symm.trans habs) (by decide)
      · exact hm
    · rw [hget, hw.get?_fixed hp, hp]
      rfl
  rw [read]
  refine (readRecord_iff hw hnodup (layer_object hc ns)).mpr ⟨?_, congrArg Json.object ?_⟩
  · -- every entry reads
    intro m hm
    obtain ⟨⟨name, y⟩, hy, rfl⟩ := List.mem_map.mp hm
    have hy : Members.get? name ns = some y := Members.get?_of_mem hsorted.nodup hy
    cases hfixed : Members.get? name fixed with
    | some expected =>
      rw [hget, hfixed] at hy
      cases hy
      rw [entryReads_fixed hfixed, readFixed, hc.layer]
      exact if_pos rfl
    | none =>
      cases hp : Members.get? name members with
      | none => exact entryReads_unknown hfixed hp
      | some p => exact (entryReads_known hfixed hp).mpr ((hmember name p hp).2 y hy)
  · -- both sides are sorted, so it is enough to look each name up
    refine Members.Sorted.ext hsorted (sorted_normalForm hw) fun name => ?_
    rw [get?_normalForm hw]
    cases hp : Members.get? name members with
    | none =>
      rw [hget, hp]
      rfl
    | some p =>
      rw [hw.get?_fixed hp, Option.bind_some, (hmember name p hp).1]
      rfl

/-- Without one of its optional members a record that reads as itself still does. -/
theorem HasMember.read_erase (hc : Carries embed) (hp : s.HasMember name p)
    (hpresence : p.1 = .optional) (hs : Members.Sorted ms)
    (h : s.read (embed (.object ms)) = .ok (.object ms)) :
    s.read (embed (.object (Members.erase name ms))) = .ok (.object (Members.erase name ms)) := by
  obtain ⟨record, fixed, members, rfl, hw, hp⟩ := hp
  have hs' : Members.Sorted (Members.erase name ms) := hs.sublist List.filter_sublist
  have hnodup : ∀ ns : Members Json, Members.Sorted ns →
      ((Members.mapValues embed ns).map Prod.fst).Nodup := by
    intro ns hns
    rw [Members.map_fst_mapValues]
    exact hns.nodup
  rw [read] at h ⊢
  obtain ⟨hentries, hnormal⟩ :=
    (readRecord_iff hw (hnodup ms hs) (layer_object hc ms)).mp h
  have hnormal : ms = fixedMembers fixed ++ normalMembers members (Members.mapValues embed ms) :=
    Json.object.inj hnormal
  refine (readRecord_iff hw (hnodup _ hs') (layer_object hc _)).mpr
    ⟨fun m hm => hentries m ?_, congrArg Json.object ?_⟩
  · obtain ⟨e, he, rfl⟩ := List.mem_map.mp hm
    exact List.mem_map_of_mem (List.mem_of_mem_filter he)
  · -- both sides are sorted, so it is enough to look each name up
    refine Members.Sorted.ext hs' (sorted_normalForm hw) fun other => ?_
    rw [get?_normalForm hw]
    by_cases ho : other = name
    · subst ho
      have hmissing : missing p = none := by simp [missing, hpresence]
      have hgone : Members.get? other (Members.mapValues embed (Members.erase other ms)) = none := by
        rw [Members.get?_mapValues, Members.get?_erase_self]
        rfl
      rw [Members.get?_erase_self, hw.get?_fixed hp, hp, Option.bind_some,
        memberValue_of_absent fun v hv => absurd (hgone.symm.trans hv) (by simp), hmissing]
      rfl
    · have hvalue : memberValue (Members.mapValues embed (Members.erase name ms)) other =
          memberValue (Members.mapValues embed ms) other := by
        funext q
        rw [memberValue, memberValue, presentValue, presentValue, Members.get?_mapValues,
          Members.get?_mapValues, Members.get?_erase_ne ho]
      have hget := congrArg (Members.get? other) hnormal
      rw [get?_normalForm hw] at hget
      rw [Members.get?_erase_ne ho, hvalue]
      exact hget

/-! ## All shapes -/

mutual

/-- **Reading is stable**: what was read from JSON reads as itself, in JSON and in any
    format that carries JSON values. -/
theorem stable (hc : Carries embed) : ∀ s : Shape, s.Regular → Stable embed s
  | text, _ => stable_text hc
  | bool, _ => stable_bool hc
  | int32, _ => stable_int32 hc
  | int64, _ => stable_int64 hc
  | intOrText, _ => stable_intOrText hc
  | time, _ => stable_time hc
  | free, _ => stable_free hc
  | list item, hs => stable_list hc (stable hc item hs)
  | map value, hs => stable_map hc (stable hc value hs)
  | record _ _ members, hs => stable_record hc hs.1 (stable_members hc members hs.2)

theorem stable_members (hc : Carries embed) : ∀ members : List (String × Presence × Shape),
    AllRegular members → ∀ m ∈ members, Stable embed m.2.2 ∧ m.2.2.Regular
  | [], _ => fun _ hm => by cases hm
  | (_, _, s) :: members, hs => by
    intro m hm
    rcases List.mem_cons.mp hm with rfl | hm
    · exact ⟨stable hc s hs.1, hs.1⟩
    · exact stable_members hc members hs.2 m hm

end

end Shape

end WorkloadEnv
