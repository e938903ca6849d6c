import WorkloadEnv.Proofs.Decode.Exact
import WorkloadEnv.Proofs.Document.RoundTrip

/-! # Documents that lose nothing

    Reading a document takes a value apart, into type, metadata and data, and
    writing puts the parts together again.  What is written need not be what was
    read: type information counts only as a whole, and half of it is dropped;
    metadata is typed, and what its shape does not know is dropped; and data has
    null for a number that is not finite.

    These are all the ways in which something is lost (`sameEntries_entries_iff`).
    A value that has its type as two texts or not at all, whose metadata is exact
    and whose other members are finite (`Lossless`) is written with the very
    entries it was read with; where it had no metadata, an empty one is added. -/

namespace WorkloadEnv.Document

open Json (SameEntries)
open Shape (textEntries Faithful)

variable {α : Type} [Source α] {embed : Json → α}
variable {d : Document} {ms : Members Json} {es : Members α} {taken : Members String}
  {name : String} {t : TypeMeta} {j x : Json}

/-! ## What is lost and what is not -/

/-- The value with metadata: what it has, else an empty one. -/
def withMetadata (j : Json) : Json :=
  match j.get? "metadata" with
  | some _ => j
  | none => .object (Members.put "metadata" (.object []) j.members)

/-- A value of which a document loses nothing. -/
structure Lossless (j : Json) : Prop where
  /-- Version and kind are both texts, or neither is there. -/
  type : (∃ version kind, j.get? "apiVersion" = some (.text version) ∧
      j.get? "kind" = some (.text kind)) ∨
    (j.get? "apiVersion" = none ∧ j.get? "kind" = none)
  /-- The metadata, if there is any, has known members only, none of them null and each
      in its written form. -/
  metadata : ∀ m, j.get? "metadata" = some m → Kubernetes.objectMeta.Exact m
  /-- Everything else has finite numbers. -/
  data : ∀ name ∉ headerNames, ∀ x, j.get? name = some x → x.Finite

theorem withMetadata_object (ms : Members Json) : ∃ ms', withMetadata (.object ms) = .object ms' ∧
    Members.get? "metadata" ms' = some ((Members.get? "metadata" ms).getD (.object [])) ∧
    ∀ name, name ≠ "metadata" → Members.get? name ms' = Members.get? name ms := by
  unfold withMetadata
  rw [Json.get?_object]
  cases hm : Members.get? "metadata" ms with
  | some m => exact ⟨ms, rfl, hm, fun _ _ => rfl⟩
  | none => exact ⟨_, rfl, Members.get?_put_self ms, fun name h => Members.get?_put_ne h ms⟩

/-! ## The first visit -/

/-- All entries but the metadata are kept, and the metadata is what its entry was
    read as. -/
theorem keep_eq_ok {metadata : Option (Members Json)} {kept : Kept α}
    (hn : (es.map Prod.fst).Nodup) (h : keep metadata (textEntries es) = .ok kept) :
    kept.others = Members.erase "metadata" es ∧
      match Members.get? "metadata" es with
      | none => kept.metadata = metadata
      | some v => ∃ n, Kubernetes.objectMeta.read v = .ok n ∧ kept.metadata = some n.members := by
  -- along the entries, with whatever metadata was read before them
  induction es generalizing metadata kept with
  | nil =>
    cases h
    exact ⟨rfl, rfl⟩
  | cons e es ih =>
    obtain ⟨name, v⟩ := e
    rw [List.map_cons, List.nodup_cons] at hn
    change keep metadata ((.text name, v) :: textEntries es) = .ok kept at h
    rw [keep] at h
    rw [Members.erase_cons, Members.get?_cons]
    split at h
    · next hname =>
      -- the metadata itself: there is no other entry of the name
      subst hname
      have hother : Members.get? "metadata" es = none :=
        Members.get?_eq_none_iff_notMem.mpr hn.1
      split at h
      · cases h
      · obtain ⟨n, hread, h⟩ := bind_eq_ok_iff.mp h
        obtain ⟨hothers, hmetadata⟩ := ih hn.2 h
        rw [hother] at hmetadata
        rw [if_pos rfl, if_pos rfl]
        exact ⟨hothers, n, hread, hmetadata⟩
    · next hname =>
      obtain ⟨-, -, h⟩ := bind_eq_ok_iff.mp h
      obtain ⟨kept', hkept', h⟩ := bind_eq_ok_iff.mp h
      cases h
      obtain ⟨hothers, hmetadata⟩ := ih hn.2 hkept'
      rw [if_neg hname, if_neg hname]
      exact ⟨congrArg ((name, v) :: ·) hothers, hmetadata⟩

/-! ## The type -/

theorem ne_metadata_of_tellsType (h : tellsType name = true) : name ≠ "metadata" := by
  rintro rfl
  cases h

/-- Data is neither metadata nor part of the type. -/
theorem not_header (h : name ∉ headerNames) : name ≠ "metadata" ∧ tellsType name = false := by
  simp only [headerNames, List.mem_cons, List.not_mem_nil, or_false, not_or] at h
  exact ⟨h.2.2, by simp [tellsType, h.1, h.2.1]⟩

/-- An entry that does not tell the type is left. -/
theorem get?_takeTypes (h : tellsType name = false) (taken : Members String) (es : Members α) :
    Members.get? name (takeTypes taken es).2 = Members.get? name es := by
  induction es generalizing taken with
  | nil => rfl
  | cons e es ih =>
    obtain ⟨n, v⟩ := e
    rw [takeTypes, Members.get?_cons]
    split
    · next hn =>
      have hne : ¬n = name := fun h' => by simp [← h', hn] at h
      rw [if_neg hne]
      split
      · exact ih _
      · rfl
    · rw [Members.get?_cons, ih taken]

/-- The first entry that tells the type is taken in any case. -/
theorem exists_taken (taken : Members String) (hn : (es.map Prod.fst).Nodup)
    (h : ∃ e ∈ es, tellsType e.1 = true) :
    ∃ e ∈ es, tellsType e.1 = true ∧ Members.get? e.1 (takeTypes taken es).2 = none := by
  induction es with
  | nil => simp at h
  | cons e es ih =>
    obtain ⟨n, v⟩ := e
    rw [List.map_cons, List.nodup_cons] at hn
    by_cases htells : tellsType n = true
    · refine ⟨_, List.mem_cons_self, htells, ?_⟩
      refine Members.get?_eq_none_iff_notMem.mpr fun hmem => hn.1 ?_
      rw [takeTypes, if_pos htells] at hmem
      -- what is left are some of the entries behind it
      split at hmem
      · exact ((takeTypes_sublist _ es).map Prod.fst).subset hmem
      · exact hmem
    · have hrest : ∃ e ∈ es, tellsType e.1 = true := by
        obtain ⟨e, he, htells'⟩ := h
        rcases List.mem_cons.mp he with rfl | he
        · exact absurd htells' htells
        · exact ⟨e, he, htells'⟩
      obtain ⟨e, he, htells', hnone⟩ := ih hn.2 hrest
      refine ⟨e, List.mem_cons_of_mem _ he, htells', ?_⟩
      have hne : ¬n = e.1 := fun h' => htells (h' ▸ htells')
      rw [takeTypes, if_neg htells, Members.get?_cons, if_neg hne]
      exact hnone

/-- Every entry that tells the type is a text, and none was taken for its name. -/
def ToldByTexts (taken : Members String) (es : Members α) : Prop :=
  ∀ e ∈ es, tellsType e.1 = true → Members.get? e.1 taken = none ∧ ∃ s, text? e.2 = some s

/-- An attempt that comes to a type has met texts only. -/
theorem toldByTexts_of_takeTypes (h : (takeTypes taken es).1 = some t) : ToldByTexts taken es := by
  induction es generalizing taken with
  | nil =>
    intro e he
    cases he
  | cons e es ih =>
    obtain ⟨n, v⟩ := e
    rw [takeTypes] at h
    split at h
    · split at h
      · next s htaken hs =>
        refine List.forall_mem_cons.mpr ⟨fun _ => ⟨htaken, s, hs⟩, fun e he htells => ?_⟩
        obtain ⟨hnone, htext⟩ := ih h e he htells
        rw [Members.get?_cons] at hnone
        split at hnone
        · cases hnone
        · exact ⟨hnone, htext⟩
      · cases h
    · next htells =>
      exact List.forall_mem_cons.mpr ⟨fun h' => absurd h' htells, ih h⟩

/-- Where all entries that tell the type are texts, they are taken for it. -/
theorem ToldByTexts.takeTypes (hn : (es.map Prod.fst).Nodup) (h : ToldByTexts taken es) :
    ∃ taken', (Document.takeTypes taken es).1 = typesOf taken' ∧
      ∀ name, tellsType name = true → Members.get? name taken' =
        (Members.get? name taken).or ((Members.get? name es).bind text?) := by
  induction es generalizing taken with
  | nil => exact ⟨taken, rfl, fun name _ => by simp⟩
  | cons e es ih =>
    obtain ⟨n, v⟩ := e
    rw [List.map_cons, List.nodup_cons] at hn
    obtain ⟨hhead, hrest⟩ := List.forall_mem_cons.mp h
    by_cases htells : tellsType n = true
    · obtain ⟨htaken, s, hs⟩ := hhead htells
      -- the entries behind have other names, so the text does not stand in their way
      have hrest' : ToldByTexts ((n, s) :: taken) es := by
        intro e he htells'
        have hmem : e.1 ∈ es.map Prod.fst := List.mem_map_of_mem he
        have hne : ¬n = e.1 := fun h' => hn.1 (h' ▸ hmem)
        rw [Members.get?_cons, if_neg hne]
        exact hrest e he htells'
      obtain ⟨taken', htypes, hget⟩ := ih hn.2 hrest'
      refine ⟨taken', (takeTypes_of_text htells htaken hs).symm ▸ htypes, fun name hname => ?_⟩
      rw [hget name hname, Members.get?_cons, Members.get?_cons]
      by_cases hsame : n = name
      · subst hsame
        simp [htaken, hs]
      · simp only [if_neg hsame]
    · obtain ⟨taken', htypes, hget⟩ := ih hn.2 hrest
      refine ⟨taken', ?_, fun name hname => ?_⟩
      · rw [Document.takeTypes, if_neg htells]
        exact htypes
      · have hne : ¬n = name := fun h' => htells (h' ▸ hname)
        rw [hget name hname, Members.get?_cons, if_neg hne]

theorem typesOf_eq_some_iff : typesOf taken = some t ↔
    Members.get? "apiVersion" taken = some t.apiVersion ∧
      Members.get? "kind" taken = some t.kind := by
  unfold typesOf
  obtain ⟨version, kind⟩ := t
  split
  · next hversion hkind => simp [hversion, hkind]
  · next h =>
    constructor
    · intro h'
      cases h'
    · rintro ⟨hversion, hkind⟩
      exact absurd hkind (h _ _ hversion)

/-- **There is a type if both of its members are texts**, and it is these two. -/
theorem takeTypes_eq_some_iff (hn : (es.map Prod.fst).Nodup) :
    (takeTypes [] es).1 = some t ↔
      (Members.get? "apiVersion" es).bind text? = some t.apiVersion ∧
        (Members.get? "kind" es).bind text? = some t.kind := by
  -- either side has the entries that tell the type as texts, and then both say the same
  have htexts : ToldByTexts [] es → ((takeTypes [] es).1 = some t ↔
      (Members.get? "apiVersion" es).bind text? = some t.apiVersion ∧
        (Members.get? "kind" es).bind text? = some t.kind) := by
    intro h
    obtain ⟨taken', htypes, hget⟩ := h.takeTypes hn
    rw [htypes, typesOf_eq_some_iff, hget _ rfl, hget _ rfl]
    exact Iff.rfl
  constructor
  · intro h
    exact (htexts (toldByTexts_of_takeTypes h)).mp h
  · rintro ⟨hversion, hkind⟩
    refine (htexts fun e he htells => ⟨rfl, ?_⟩).mpr ⟨hversion, hkind⟩
    have hget : Members.get? e.1 es = some e.2 := Members.get?_of_mem hn he
    simp only [tellsType, Bool.or_eq_true, decide_eq_true_eq] at htells
    rcases htells with hname | hname
    · rw [← hname, hget] at hversion
      exact ⟨_, hversion⟩
    · rw [← hname, hget] at hkind
      exact ⟨_, hkind⟩

/-! ## The data -/

/-- Data is read as the entries of a map are. -/
theorem readData_eq (acc : Members Json) (es : Members α) :
    readData acc es = Shape.readEntries Source.free acc (textEntries es) := by
  induction es generalizing acc with
  | nil => rfl
  | cons e es ih =>
    obtain ⟨name, v⟩ := e
    show _ = Shape.readEntries Source.free acc ((.text name, v) :: textEntries es)
    rw [readData, Shape.readEntries]
    cases Source.free v with
    | error e => rfl
    | ok j => exact ih _

/-! ## The parts of a document -/

/-- The entries of an object besides the metadata, as the second visit finds them. -/
def others (embed : Json → α) (ms : Members Json) : Members α :=
  Members.erase "metadata" (Members.mapValues embed ms)

omit [Source α] in
theorem get?_others (h : name ≠ "metadata") :
    Members.get? name (others embed ms) = (Members.get? name ms).map embed := by
  rw [others, Members.get?_erase_ne h, Members.get?_mapValues]

omit [Source α] in
theorem nodup_mapValues (hn : (ms.map Prod.fst).Nodup) :
    ((Members.mapValues embed ms).map Prod.fst).Nodup := by
  rw [Members.map_fst_mapValues]
  exact hn

omit [Source α] in
theorem nodup_others (hn : (ms.map Prod.fst).Nodup) :
    ((others embed ms).map Prod.fst).Nodup :=
  (nodup_mapValues hn).sublist (List.filter_sublist.map Prod.fst)

/-- What a document holds of the entries it was read from. -/
structure PartsOf (embed : Json → α) (ms : Members Json) (d : Document) : Prop where
  /-- Each member of the data is the free form of an entry that was left. -/
  data : ∀ name, Option.Rel (fun v n => Source.free v = .ok n)
    (Members.get? name (takeTypes [] (others embed ms)).2) (Members.get? name d.data)
  types : d.types = (takeTypes [] (others embed ms)).1
  metadata : match Members.get? "metadata" ms with
    | none => d.metadata = []
    | some m => ∃ n, Kubernetes.objectMeta.read (embed m) = .ok n ∧ d.metadata = n.members

theorem partsOf_read (hc : Carries embed) (hn : (ms.map Prod.fst).Nodup)
    (h : Document.read (embed (.object ms)) = .ok d) : PartsOf embed ms d := by
  have hentries := Shape.mapEntries_object hc "struct DynamicObject" ms
  obtain ⟨es, kept, data, hes, hkept, hdata, rfl⟩ := read_eq_ok_iff.mp h
  obtain rfl := Except.ok.inj (hentries.symm.trans hes)
  obtain ⟨hothers, hmetadata⟩ := keep_eq_ok (nodup_mapValues hn) hkept
  rw [← others] at hothers
  rw [hothers, readData_eq] at hdata
  refine ⟨fun name => ?_, by rw [hothers], ?_⟩
  · have hnodup : ((others embed ms).map Prod.fst).Nodup := nodup_others hn
    have hleft := hnodup.sublist ((takeTypes_sublist [] (others embed ms)).map Prod.fst)
    exact Shape.rel_get?_of_readEntries hleft hdata name
  · rw [Members.get?_mapValues] at hmetadata
    cases hm : Members.get? "metadata" ms with
    | none =>
      rw [hm] at hmetadata
      exact congrArg (Option.getD · []) hmetadata
    | some m =>
      rw [hm] at hmetadata
      obtain ⟨n, hread, hkept⟩ := hmetadata
      exact ⟨n, hread, congrArg (Option.getD · []) hkept⟩

namespace PartsOf

/-- The type is that of the two members, if both are texts. -/
theorem types_eq_some_iff (hc : Carries embed) (hd : PartsOf embed ms d)
    (hn : (ms.map Prod.fst).Nodup) :
    d.types = some t ↔ Members.get? "apiVersion" ms = some (.text t.apiVersion) ∧
      Members.get? "kind" ms = some (.text t.kind) := by
  have htext : ∀ (u : Option Json) (s : String),
      (u.map embed).bind text? = some s ↔ u = some (.text s) := by
    intro u s
    cases u with
    | none => simp
    | some x =>
      rw [Option.map_some, Option.bind_some, text?, hc.layer]
      cases x <;> simp [Json.layer, Layer.carry]
  rw [hd.types, takeTypes_eq_some_iff (nodup_others hn), get?_others (by decide),
    get?_others (by decide), htext, htext]

/-- The metadata has the entries it was read from exactly if these are exact. -/
theorem metadata_iff (hmeta : Faithful embed Kubernetes.objectMeta) (hd : PartsOf embed ms d)
    (hms : (Json.object ms).Distinct) :
    SameEntries ((Members.get? "metadata" ms).getD (.object [])) (.object d.metadata) ↔
      ∀ m, Members.get? "metadata" ms = some m → Kubernetes.objectMeta.Exact m := by
  have hmetadata := hd.metadata
  cases hm : Members.get? "metadata" ms with
  | none =>
    rw [hm] at hmetadata
    rw [hmetadata]
    refine ⟨fun _ m h => ?_, fun _ => .refl _⟩
    cases h
  | some m =>
    rw [hm] at hmetadata
    obtain ⟨n, hread, hmembers⟩ := hmetadata
    -- a record is read as an object, so its members are all of it
    have hobject : Json.object d.metadata = n := by
      simp only [Kubernetes.objectMeta, Kubernetes.record, Shape.read, Shape.readRecord,
        bind_eq_ok_iff] at hread
      obtain ⟨-, -, known, -, h⟩ := hread
      rw [hmembers, ← Except.ok.inj h]
      rfl
    rw [hobject, Option.getD_some, ← Shape.keptBy_iff_of_read hread, ← hmeta m (hms.get? hm)]
    exact ⟨fun h m' hm' => Option.some.inj hm' ▸ h, fun h => h m rfl⟩

/-- A member that is neither type nor metadata is in the data as it was if its numbers are
    finite, and only then. -/
theorem data_iff (hfree : Faithful embed .free) (hd : PartsOf embed ms d)
    (hms : (Json.object ms).Distinct) (hname : name ∉ headerNames) :
    Option.Rel SameEntries (Members.get? name ms) (Members.get? name d.data) ↔
      ∀ x, Members.get? name ms = some x → x.Finite := by
  obtain ⟨hne, htells⟩ := not_header hname
  have hrel := hd.data name
  rw [get?_takeTypes htells, get?_others hne] at hrel
  cases hx : Members.get? name ms with
  | none =>
    rw [hx] at hrel
    rw [rel_none_left_iff.mp hrel]
    simp
  | some x =>
    rw [hx] at hrel
    obtain ⟨n, hn, hread⟩ := rel_some_left_iff.mp hrel
    have hread' : Shape.free.read (embed x) = .ok n := by
      rw [Shape.read]
      exact hread
    have hfinite : x.Finite ↔ x.SameEntries n := by
      rw [← Shape.keptBy_iff_of_read hread', ← hfree x (hms.get? hx), Shape.Exact]
    rw [hn, Option.rel_some_some, ← hfinite]
    simp

/-- The data has the members that tell the type only where there are none: the first of
    them is taken in any case. -/
theorem data_iff_of_tellsType (hd : PartsOf embed ms d) (hn : (ms.map Prod.fst).Nodup) :
    (∀ name, tellsType name = true →
        Option.Rel SameEntries (Members.get? name ms) (Members.get? name d.data)) ↔
      ∀ name, tellsType name = true → Members.get? name ms = none := by
  have hothers : ∀ name, tellsType name = true →
      Members.get? name (others embed ms) = (Members.get? name ms).map embed :=
    fun name htells => get?_others (ne_metadata_of_tellsType htells)
  constructor
  · intro h name htells
    by_contra hname
    obtain ⟨x, hx⟩ := Option.ne_none_iff_exists'.mp hname
    have hmem : (name, embed x) ∈ others embed ms := by
      refine Members.mem_of_get? ?_
      rw [hothers name htells, hx]
      rfl
    obtain ⟨e, he, htold, htaken⟩ :=
      exists_taken [] (nodup_others hn) ⟨_, hmem, htells⟩
    -- what is taken is not among the data, so it was not there
    have hdata := hd.data e.1
    rw [htaken, rel_none_left_iff] at hdata
    have hentry := h e.1 htold
    rw [hdata, rel_none_right_iff] at hentry
    have hfound := Members.get?_of_mem (nodup_others hn) he
    rw [hothers e.1 htold, hentry] at hfound
    cases hfound
  · intro h name htells
    have hnone : Members.get? name (takeTypes [] (others embed ms)).2 = none := by
      have hgone : Members.get? name (others embed ms) = none := by
        rw [hothers name htells, h name htells]
        rfl
      rw [Members.get?_eq_none_iff] at hgone ⊢
      exact fun m hm => hgone m ((takeTypes_sublist [] _).subset hm)
    have hdata := hd.data name
    rw [hnone, rel_none_left_iff] at hdata
    rw [h name htells, hdata]
    exact .none

end PartsOf

/-! ## The members that are written -/

theorem get?_metadata_entries (d : Document) :
    Members.get? "metadata" d.entries = some (.object d.metadata) := by
  obtain ⟨types, metadata, data⟩ := d
  cases types <;> rfl

theorem get?_entries (h : name ≠ "metadata") (d : Document) :
    Members.get? name d.entries =
      (Members.get? name (typeMembers d.types)).or (Members.get? name d.data) := by
  rw [entries_eq, Members.get?_append, Members.get?_cons, if_neg h.symm]

theorem get?_typeMembers_eq_none (h : tellsType name = false) (types : Option TypeMeta) :
    Members.get? name (typeMembers types) = none := by
  simp only [tellsType, Bool.or_eq_false_iff, decide_eq_false_iff_not] at h
  cases types with
  | none => rfl
  | some t =>
    rw [typeMembers, Members.get?_cons, Members.get?_cons, if_neg (Ne.symm h.1),
      if_neg (Ne.symm h.2)]
    rfl

/-- The type is written as it was read if it was two texts or not there, and only then. -/
theorem PartsOf.type_iff (hc : Carries embed) (hd : PartsOf embed ms d)
    (hn : (ms.map Prod.fst).Nodup) :
    (∀ name, tellsType name = true →
        Option.Rel SameEntries (Members.get? name ms) (Members.get? name d.entries)) ↔
      (∃ version kind, Members.get? "apiVersion" ms = some (.text version) ∧
          Members.get? "kind" ms = some (.text kind)) ∨
        (Members.get? "apiVersion" ms = none ∧ Members.get? "kind" ms = none) := by
  have hnames : ∀ {P : String → Prop}, (∀ name, tellsType name = true → P name) ↔
      P "apiVersion" ∧ P "kind" := by
    intro P
    simp [tellsType]
  cases htypes : d.types with
  | some t =>
    obtain ⟨hversion, hkind⟩ := (hd.types_eq_some_iff hc hn).mp htypes
    have hwritten : ∀ name, name ≠ "metadata" → Members.get? name d.entries =
        (Members.get? name (typeMembers (some t))).or (Members.get? name d.data) :=
      fun name h => htypes ▸ get?_entries h d
    rw [hnames, hwritten _ (by decide), hwritten _ (by decide), hversion, hkind]
    exact ⟨fun _ => .inl ⟨_, _, rfl, rfl⟩, fun _ => ⟨.some (.refl _), .some (.refl _)⟩⟩
  | none =>
    have hwritten : ∀ name, tellsType name = true →
        Members.get? name d.entries = Members.get? name d.data := by
      intro name htells
      rw [get?_entries (ne_metadata_of_tellsType htells), htypes]
      rfl
    have hkept := hd.data_iff_of_tellsType hn
    rw [hnames (P := fun name => Members.get? name ms = none)] at hkept
    rw [forall₂_congr fun name htells => by rw [hwritten name htells], hkept]
    refine ⟨.inr, fun h => ?_⟩
    rcases h with ⟨version, kind, htexts⟩ | h
    · -- two texts would have been a type
      have htype := (hd.types_eq_some_iff hc hn (t := ⟨version, kind⟩)).mpr htexts
      rw [htypes] at htype
      cases htype
    · exact h

/-! ## The whole document -/

/-- **A document is written with the entries it was read with exactly if it is lossless.** -/
theorem sameEntries_entries_iff (hc : Carries embed) (hfree : Faithful embed .free)
    (hmeta : Faithful embed Kubernetes.objectMeta) (hms : (Json.object ms).Distinct)
    (h : Document.read (embed (.object ms)) = .ok d) :
    SameEntries (withMetadata (.object ms)) (.object d.entries) ↔ Lossless (.object ms) := by
  have hd := partsOf_read hc hms.nodup h
  obtain ⟨ms', hwith, hmetadata, hother⟩ := withMetadata_object ms
  have hwritten : ∀ name ∉ headerNames, Members.get? name d.entries = Members.get? name d.data := by
    intro name hname
    obtain ⟨hne, htells⟩ := not_header hname
    rw [get?_entries hne, get?_typeMembers_eq_none htells, Option.none_or]
  rw [hwith, Json.sameEntries_object_iff]
  constructor
  · intro hsame
    refine ⟨(hd.type_iff hc hms.nodup).mp fun name hname => ?_,
      (hd.metadata_iff hmeta hms).mp ?_, fun name hname => (hd.data_iff hfree hms hname).mp ?_⟩
    · have hentry := hsame name
      rwa [hother name (ne_metadata_of_tellsType hname)] at hentry
    · have hentry := hsame "metadata"
      rw [hmetadata, get?_metadata_entries] at hentry
      exact Option.rel_some_some.mp hentry
    · have hentry := hsame name
      rwa [hother name (not_header hname).1, hwritten name hname] at hentry
  · intro hl name
    by_cases hname : name = "metadata"
    · rw [hname, hmetadata, get?_metadata_entries]
      exact .some ((hd.metadata_iff hmeta hms).mpr hl.metadata)
    · rw [hother name hname]
      by_cases htype : tellsType name = true
      · exact (hd.type_iff hc hms.nodup).mpr hl.type name htype
      · have hrest : name ∉ headerNames := by
          intro hmem
          simp only [headerNames, List.mem_cons, List.not_mem_nil, or_false] at hmem
          rcases hmem with rfl | rfl | rfl
          · exact htype rfl
          · exact htype rfl
          · exact hname rfl
        rw [hwritten name hrest]
        exact (hd.data_iff hfree hms hrest).mpr (hl.data name hrest)

end WorkloadEnv.Document
