import WorkloadEnv.Decode.Shape
import WorkloadEnv.Proofs.Json.Members

/-! # What reading a record gives

    Reading a record goes through the entries of a mapping one by one and keeps
    what it has read so far.  Where the names of the entries are distinct, the
    outcome does not depend on that run: reading succeeds when every entry reads
    for itself (`EntryReads`), and each member of the normal form comes from the
    one entry of its name (`memberValue`).  All later proofs about records use
    `read_record_iff` and never the run. -/

namespace WorkloadEnv

/-- A computation in two steps succeeds when both do. -/
theorem bind_eq_ok_iff {ε α β : Type} {x : Except ε α} {f : α → Except ε β} {b : β} :
    (x >>= f) = .ok b ↔ ∃ a, x = .ok a ∧ f a = .ok b := by
  cases x with
  | error e => simp [bind, Except.bind]
  | ok a => simp [bind, Except.bind]

theorem map_eq_ok_iff {ε α β : Type} {x : Except ε α} {f : α → β} {b : β} :
    x.map f = .ok b ↔ ∃ a, x = .ok a ∧ f a = b := by
  cases x with
  | error e => simp [Except.map]
  | ok a => simp [Except.map]

theorem mapError_eq_ok_iff {ε ε' α : Type} {x : Except ε α} {f : ε → ε'} {a : α} :
    x.mapError f = .ok a ↔ x = .ok a := by
  cases x with
  | error e => simp [Except.mapError]
  | ok a => simp [Except.mapError]

namespace Shape

variable {α : Type} [Source α]

/-- The entries of a mapping whose keys are all texts. -/
def textEntries (ms : Members α) : List (Key × α) := ms.map fun m => (.text m.1, m.2)

/-! ## One entry -/

/-- The entry reads without an error: a fixed member has its text, and a member
    of the record is absent or has its shape.  Any other entry may hold anything. -/
def EntryReads (fixed : List (String × String)) (members : Members (Presence × Shape))
    (m : String × α) : Prop :=
  match Members.get? m.1 fixed, Members.get? m.1 members with
  | some expected, _ => readFixed expected m.2 = .ok ()
  | none, some p => Source.absent m.2 = true ∨ ∃ j, p.2.read m.2 = .ok j
  | none, none => True

/-- What the normal form holds of a member that is absent. -/
def missing (p : Presence × Shape) : Option Json :=
  if p.1 = .required then some p.2.default else none

/-- What an entry of the name was read as, unless it is absent. -/
def presentValue (ms : Members α) (name : String) (p : Presence × Shape) : Option Json :=
  (Members.get? name ms).bind fun v => if Source.absent v then none else (p.2.read v).toOption

/-- What the normal form holds of a member. -/
def memberValue (ms : Members α) (name : String) (p : Presence × Shape) : Option Json :=
  (presentValue ms name p).or (missing p)

/-- The members of a normal form, in the order of the record. -/
def normalMembers (members : Members (Presence × Shape)) (ms : Members α) : Members Json :=
  members.filterMap fun m => (memberValue ms m.1 m.2).map (m.1, ·)

/-! ## The run over the entries -/

theorem findReader_memberReaders (name : String) (members : Members (Presence × Shape)) :
    findReader name (memberReaders members : List (MemberReader α)) =
      (Members.get? name members).map fun p => ⟨name, missing p, fun v => p.2.read v⟩ := by
  induction members with
  | nil => rfl
  | cons m members ih =>
    obtain ⟨n, p, s⟩ := m
    rw [memberReaders, findReader, Members.get?_cons]
    by_cases hn : n = name
    · subst hn
      simp [missing]
    · simp only [if_neg hn, ih]

section

variable {fixed : List (String × String)} {members : Members (Presence × Shape)}
variable {name : String} {v : α} {ms : Members α} {acc known : Members Json}

theorem readKnown_fixed {expected : String} {es : List (Key × α)}
    (hf : Members.get? name fixed = some expected) :
    readKnown fixed (memberReaders members) acc ((.text name, v) :: es) =
      (readFixed expected v >>= fun _ => readKnown fixed (memberReaders members) acc es) := by
  rw [readKnown, hf]

theorem readKnown_absent {p : Presence × Shape} {es : List (Key × α)}
    (hf : Members.get? name fixed = none) (hp : Members.get? name members = some p)
    (hv : Source.absent v = true) :
    readKnown fixed (memberReaders members) acc ((.text name, v) :: es) =
      readKnown fixed (memberReaders members) (Members.erase name acc) es := by
  rw [readKnown, hf, findReader_memberReaders, hp]
  simp [hv]

theorem readKnown_present {p : Presence × Shape} {es : List (Key × α)}
    (hf : Members.get? name fixed = none) (hp : Members.get? name members = some p)
    (hv : Source.absent v = false) :
    readKnown fixed (memberReaders members) acc ((.text name, v) :: es) =
      (p.2.read v >>= fun j =>
        readKnown fixed (memberReaders members) (Members.put name j acc) es) := by
  rw [readKnown, hf, findReader_memberReaders, hp]
  simp [hv]

theorem readKnown_unknown {es : List (Key × α)}
    (hf : Members.get? name fixed = none) (hp : Members.get? name members = none) :
    readKnown fixed (memberReaders members) acc ((.text name, v) :: es) =
      readKnown fixed (memberReaders members) acc es := by
  rw [readKnown, hf, findReader_memberReaders, hp]
  rfl

theorem entryReads_fixed {expected : String} (hf : Members.get? name fixed = some expected) :
    EntryReads fixed members (name, v) ↔ readFixed expected v = .ok () := by
  simp only [EntryReads, hf]

theorem entryReads_known {p : Presence × Shape} (hf : Members.get? name fixed = none)
    (hp : Members.get? name members = some p) :
    EntryReads fixed members (name, v) ↔ Source.absent v = true ∨ ∃ j, p.2.read v = .ok j := by
  simp only [EntryReads, hf, hp]

theorem entryReads_unknown (hf : Members.get? name fixed = none)
    (hp : Members.get? name members = none) : EntryReads fixed members (name, v) := by
  simp only [EntryReads, hf, hp]

/-- A run ends well exactly when every entry reads for itself. -/
theorem exists_readKnown_iff (acc : Members Json) :
    (∃ known, readKnown fixed (memberReaders members) acc (textEntries ms) = .ok known) ↔
      ∀ m ∈ ms, EntryReads fixed members m := by
  -- what was kept so far does not matter, so the induction is for all of it
  induction ms generalizing acc with
  | nil =>
    refine ⟨fun _ m hm => ?_, fun _ => ⟨acc, rfl⟩⟩
    cases hm
  | cons m ms ih =>
    obtain ⟨n, v⟩ := m
    show (∃ known, readKnown fixed (memberReaders members) acc
      ((.text n, v) :: textEntries ms) = .ok known) ↔ _
    rw [List.forall_mem_cons]
    cases hf : Members.get? n fixed with
    | some expected =>
      rw [readKnown_fixed hf, entryReads_fixed hf, ← ih acc]
      simp only [bind_eq_ok_iff]
      constructor
      · rintro ⟨k, ⟨⟩, h, hk⟩
        exact ⟨h, k, hk⟩
      · rintro ⟨h, k, hk⟩
        exact ⟨k, (), h, hk⟩
    | none =>
      cases hp : Members.get? n members with
      | none =>
        rw [readKnown_unknown hf hp, ih acc]
        exact (and_iff_right (entryReads_unknown hf hp)).symm
      | some p =>
        rw [entryReads_known hf hp]
        cases hv : Source.absent v with
        | true =>
          rw [readKnown_absent hf hp hv, ih]
          exact (and_iff_right (.inl rfl)).symm
        | false =>
          rw [readKnown_present hf hp hv]
          simp only [bind_eq_ok_iff, Bool.false_eq_true, false_or]
          constructor
          · rintro ⟨k, j, hj, hk⟩
            exact ⟨⟨j, hj⟩, (ih _).mp ⟨k, hk⟩⟩
          · rintro ⟨⟨j, hj⟩, hall⟩
            obtain ⟨k, hk⟩ := (ih (Members.put n j acc)).mpr hall
            exact ⟨k, j, hj, hk⟩

/-- What a run keeps of a member: what the entry of its name was read as, and
    without such an entry what was there before. -/
theorem get?_readKnown {p : Presence × Shape} (hn : (ms.map Prod.fst).Nodup)
    (hf : Members.get? name fixed = none) (hp : Members.get? name members = some p)
    (h : readKnown fixed (memberReaders members) acc (textEntries ms) = .ok known) :
    Members.get? name known =
      if name ∈ ms.map Prod.fst then presentValue ms name p else Members.get? name acc := by
  induction ms generalizing acc with
  | nil =>
    cases h
    rfl
  | cons m ms ih =>
    obtain ⟨n, v⟩ := m
    rw [List.map_cons, List.nodup_cons] at hn
    have ih := fun acc => @ih acc hn.2
    simp only [List.map_cons, List.mem_cons]
    change readKnown fixed (memberReaders members) acc
      ((.text n, v) :: textEntries ms) = .ok known at h
    by_cases hname : n = name
    · -- the entry of this name: no later one has it
      subst hname
      simp only [true_or, if_true, presentValue, Members.get?_cons, Option.bind_some]
      cases hv : Source.absent v with
      | true =>
        rw [readKnown_absent hf hp hv] at h
        simpa [hn.1] using ih _ h
      | false =>
        rw [readKnown_present hf hp hv, bind_eq_ok_iff] at h
        obtain ⟨j, hj, h⟩ := h
        simpa [hn.1, hj, Except.toOption] using ih _ h
    · -- any other entry leaves the member as it is
      have hpv : presentValue ((n, v) :: ms) name p = presentValue ms name p := by
        simp only [presentValue, Members.get?_cons, if_neg hname]
      have hne : ¬name = n := fun h' => hname h'.symm
      rw [hpv]
      simp only [hne, false_or]
      cases hf' : Members.get? n fixed with
      | some expected =>
        rw [readKnown_fixed hf', bind_eq_ok_iff] at h
        obtain ⟨-, -, h⟩ := h
        exact ih _ h
      | none =>
        cases hp' : Members.get? n members with
        | none =>
          rw [readKnown_unknown hf' hp'] at h
          exact ih _ h
        | some q =>
          cases hv : Source.absent v with
          | true =>
            rw [readKnown_absent hf' hp' hv] at h
            rw [ih _ h, Members.get?_erase_ne hne]
          | false =>
            rw [readKnown_present hf' hp' hv, bind_eq_ok_iff] at h
            obtain ⟨j, -, h⟩ := h
            rw [ih _ h, Members.get?_put_ne hne]

/-! ## The normal form -/

/-- The names of a record are increasing, the fixed ones first. -/
def WellNamed (fixed : List (String × String)) (members : Members (Presence × Shape)) : Prop :=
  (fixed.map Prod.fst ++ members.map Prod.fst).Pairwise (· < ·)

instance : Decidable (WellNamed fixed members) := inferInstanceAs (Decidable (List.Pairwise _ _))

theorem WellNamed.sorted (h : WellNamed fixed members) : Members.Sorted members :=
  Members.sorted_iff_map_fst.mpr (List.pairwise_append.mp h).2.1

theorem WellNamed.get?_fixed {p : Presence × Shape} (h : WellNamed fixed members)
    (hp : Members.get? name members = some p) : Members.get? name fixed = none := by
  rw [Members.get?_eq_none_iff_notMem]
  intro hfixed
  have hmember : name ∈ members.map Prod.fst :=
    List.mem_map_of_mem (f := Prod.fst) (Members.mem_of_get? hp)
  -- a fixed name is less than the name of any member
  have hlt : name < name := (List.pairwise_append.mp h).2.2 name hfixed name hmember
  exact absurd hlt (lt_irrefl name)

theorem arrange_memberReaders (members : Members (Presence × Shape)) (known : Members Json) :
    arrange (memberReaders members : List (MemberReader α)) known =
      members.filterMap fun m => ((Members.get? m.1 known).or (missing m.2)).map (m.1, ·) := by
  induction members with
  | nil => rfl
  | cons m members ih =>
    obtain ⟨n, p, s⟩ := m
    unfold arrange at ih ⊢
    rw [memberReaders, List.filterMap_cons, List.filterMap_cons, ih]
    cases hk : Members.get? n known with
    | none => simp [missing]
    | some j => simp

/-- The members that a run keeps, in the order of the record. -/
theorem arrange_readKnown (hw : WellNamed fixed members) (hn : (ms.map Prod.fst).Nodup)
    (h : readKnown fixed (memberReaders members) [] (textEntries ms) = .ok known) :
    arrange (memberReaders members : List (MemberReader α)) known = normalMembers members ms := by
  rw [arrange_memberReaders]
  refine List.filterMap_congr fun m hm => ?_
  obtain ⟨n, p⟩ := m
  have hp : Members.get? n members = some p := Members.get?_of_mem hw.sorted.nodup hm
  have hk := get?_readKnown hn (hw.get?_fixed hp) hp h
  have hnone : n ∉ ms.map Prod.fst → presentValue ms n p = none := by
    intro hnot
    simp [presentValue, Members.get?_eq_none_iff_notMem.mpr hnot]
  by_cases hmem : n ∈ ms.map Prod.fst
  · simp only [hk, if_pos hmem, memberValue]
  · simp only [hk, if_neg hmem, memberValue, hnone hmem, Members.get?_nil]

/-- Reading a record from entries with distinct names. -/
theorem readRecord_iff {record : String} {n : Json} (hw : WellNamed fixed members)
    (hn : (ms.map Prod.fst).Nodup) (hv : Source.layer v = .map (textEntries ms)) :
    readRecord record fixed (memberReaders members) v = .ok n ↔
      (∀ m ∈ ms, EntryReads fixed members m) ∧
        n = .object (fixedMembers fixed ++ normalMembers members ms) := by
  have hentries : mapEntries record v = .ok (textEntries ms) := by rw [mapEntries, hv]
  rw [← exists_readKnown_iff [], readRecord, hentries]
  change (readKnown fixed (memberReaders members) [] (textEntries ms) >>= fun known =>
    .ok (.object (fixedMembers fixed ++
      arrange (memberReaders members : List (MemberReader α)) known))) = .ok n ↔ _
  rw [bind_eq_ok_iff]
  constructor
  · rintro ⟨known, hknown, h⟩
    rw [arrange_readKnown hw hn hknown] at h
    exact ⟨⟨known, hknown⟩, (Except.ok.inj h).symm⟩
  · rintro ⟨⟨known, hknown⟩, rfl⟩
    exact ⟨known, hknown, by rw [arrange_readKnown hw hn hknown]⟩

/-! ## Looking a normal form up -/

variable {p : Presence × Shape}

theorem get?_fixedMembers :
    Members.get? name (fixedMembers fixed) = (Members.get? name fixed).map Json.text := by
  induction fixed with
  | nil => rfl
  | cons f fixed ih =>
    show Members.get? name ((f.1, Json.text f.2) :: fixedMembers fixed) = _
    rw [Members.get?_cons, Members.get?_cons, ih]
    split <;> rfl

/-- The names of a normal form are some of those of the record. -/
theorem map_fst_normalMembers_sublist :
    ((normalMembers members ms).map Prod.fst).Sublist (members.map Prod.fst) := by
  induction members with
  | nil => exact List.Sublist.refl _
  | cons m members ih =>
    unfold normalMembers at ih ⊢
    rw [List.filterMap_cons]
    cases memberValue ms m.1 m.2 with
    | none => exact ih.cons _
    | some v => exact ih.cons_cons _

theorem get?_normalMembers (hs : Members.Sorted members) :
    Members.get? name (normalMembers members ms) =
      (Members.get? name members).bind (memberValue ms name) := by
  induction members with
  | nil => rfl
  | cons m members ih =>
    have hrest := ih hs.tail
    rw [Members.get?_cons]
    by_cases hname : m.1 = name
    · have hfresh : Members.get? name members = none := hname ▸ hs.get?_tail
      rw [hfresh, Option.bind_none] at hrest
      rw [if_pos hname, Option.bind_some, ← hname]
      unfold normalMembers at hrest ⊢
      rw [List.filterMap_cons]
      cases memberValue ms m.1 m.2 with
      | none => exact hname ▸ hrest
      | some v => simp [Members.get?_cons]
    · rw [if_neg hname, ← hrest]
      unfold normalMembers
      rw [List.filterMap_cons]
      cases memberValue ms m.1 m.2 with
      | none => rfl
      | some v => rw [Option.map_some, Members.get?_cons, if_neg hname]

theorem sorted_normalForm (hw : WellNamed fixed members) :
    Members.Sorted (fixedMembers fixed ++ normalMembers members ms) := by
  have hfixed : (fixedMembers fixed).map Prod.fst = fixed.map Prod.fst := by
    simp [fixedMembers, Function.comp_def]
  rw [Members.sorted_iff_map_fst, List.map_append, hfixed]
  exact hw.sublist (List.Sublist.append_left map_fst_normalMembers_sublist _)

/-- What is found in a normal form: the text of a fixed member, what the entry of
    a member was read as, and nothing else. -/
theorem get?_normalForm (hw : WellNamed fixed members) :
    Members.get? name (fixedMembers fixed ++ normalMembers members ms) =
      ((Members.get? name fixed).map Json.text).or
        ((Members.get? name members).bind (memberValue ms name)) := by
  rw [Members.get?_append, get?_fixedMembers, get?_normalMembers hw.sorted]

theorem memberValue_of_read {m : Json} (hv : Members.get? name ms = some v)
    (habs : Source.absent v = false) (hm : p.2.read v = .ok m) :
    memberValue ms name p = some m := by
  simp [memberValue, presentValue, hv, habs, hm, Except.toOption]

theorem memberValue_of_absent
    (h : ∀ v, Members.get? name ms = some v → Source.absent v = true) :
    memberValue ms name p = missing p := by
  cases hv : Members.get? name ms with
  | none => simp [memberValue, presentValue, hv]
  | some v => simp [memberValue, presentValue, hv, h v hv]

end

end Shape

end WorkloadEnv
