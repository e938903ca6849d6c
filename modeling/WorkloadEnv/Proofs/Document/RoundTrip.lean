import WorkloadEnv.Proofs.Decode.Stable
import WorkloadEnv.Proofs.Document

/-! # Reading a written document

    A document is written as one mapping, the type first, then the metadata, then
    the data.  Reading takes the mapping apart again: the metadata is read by its
    shape, the type is taken from what is left, and all else is data.

    The parts come back as they were (`ReadsBack.read`) under three conditions
    (`ReadsBack`): the metadata is in normal form, the numbers of the data are
    finite, and the data has no members that would be taken for the type.  All
    but the last hold of every document that was decoded from JSON
    (`FromFiniteJson.readsBack`). -/

namespace WorkloadEnv.Document

open Shape (textEntries)

variable {α : Type} [Source α] {embed : Json → α}
variable {d : Document} {ms : Members Json}

/-! ## Where the metadata comes from -/

/-- The document was decoded from a JSON value as JSON can write it: below the
    members of its own, which may stand in any order, the names of an object are
    distinct and increasing, and all numbers are finite. -/
def FromFiniteJson (d : Document) : Prop :=
  ∃ j : Json, (∀ m ∈ j.members, m.2.Ordered ∧ m.2.Finite) ∧ Document.read j = .ok d

theorem FromFiniteJson.fromJson (h : d.FromFiniteJson) : d.FromJson := by
  obtain ⟨j, hj, hread⟩ := h
  exact ⟨j, fun m hm => (hj m hm).1, hread⟩

/-- Documents that are decoded from a JSON text are among them. -/
theorem fromFiniteJson_of_parse {s : String} {j : Json} (hj : Json.parse s = .ok j)
    (hd : Document.read j = .ok d) : d.FromFiniteJson := by
  have hordered := Json.ordered_of_parse hj
  have hfinite := Json.finite_of_parse hj
  refine ⟨j, fun m hm => ?_, hd⟩
  cases j with
  | object ms =>
    exact ⟨(Json.ordered_object_iff.mp hordered).2 m hm, Json.finite_object_iff.mp hfinite m hm⟩
  | _ => cases hm

/-- The metadata that is kept was there before or is what an entry was read as. -/
theorem metadata_keep {metadata : Option (Members Json)} {kept : Kept Json}
    (h : keep metadata (textEntries ms) = .ok kept) :
    kept.metadata = metadata ∨ ∃ m ∈ ms, ∃ n, Kubernetes.objectMeta.read m.2 = .ok n ∧
      kept.metadata = some n.members := by
  induction ms generalizing metadata kept with
  | nil =>
    cases h
    exact .inl rfl
  | cons e ms ih =>
    obtain ⟨name, v⟩ := e
    change keep metadata ((.text name, v) :: textEntries ms) = .ok kept at h
    rw [keep] at h
    split at h
    · split at h
      · cases h
      · obtain ⟨n, hn, h⟩ := bind_eq_ok_iff.mp h
        rcases ih h with hkept | ⟨m, hm, hfrom⟩
        · exact .inr ⟨(name, v), List.mem_cons_self, n, hn, hkept⟩
        · exact .inr ⟨m, List.mem_cons_of_mem _ hm, hfrom⟩
    · obtain ⟨-, -, h⟩ := bind_eq_ok_iff.mp h
      obtain ⟨kept', hkept', h⟩ := bind_eq_ok_iff.mp h
      cases h
      rcases ih hkept' with hkept | ⟨m, hm, hfrom⟩
      · exact .inl hkept
      · exact .inr ⟨m, List.mem_cons_of_mem _ hm, hfrom⟩

theorem objectMeta_hasMember_creationTimestamp :
    Kubernetes.objectMeta.HasMember "creationTimestamp" (.optional, .time) :=
  ⟨_, _, _, rfl, by decide, rfl⟩

/-- **The metadata of a document is a normal form.**  Where there is no entry for it,
    it is what an object without members is read as. -/
theorem FromFiniteJson.metadata (h : d.FromFiniteJson) :
    Members.Sorted d.metadata ∧ ∃ x : Json, x.Ordered ∧ x.Finite ∧
      Kubernetes.objectMeta.read x = .ok (.object d.metadata) := by
  obtain ⟨j, hj, h⟩ := h
  obtain ⟨es, kept, data, hes, hkept, -, rfl⟩ := read_eq_ok_iff.mp h
  obtain ⟨ms, rfl, rfl⟩ := Shape.mapEntries_eq_ok_iff.mp hes
  rcases metadata_keep hkept with hnone | ⟨m, hm, n, hn, hsome⟩
  · rw [hnone]
    exact ⟨List.Pairwise.nil, .object [], ⟨List.Pairwise.nil, trivial⟩, trivial, rfl⟩
  · obtain ⟨hordered, hfinite⟩ := hj m hm
    rw [hsome]
    generalize m.2 = x at hn hordered hfinite
    -- a record is read from an object, and what it is read as is one again
    have hp := objectMeta_hasMember_creationTimestamp
    obtain ⟨ms', rfl⟩ := hp.object hn
    obtain ⟨ns, rfl, hsorted⟩ := hp.sorted hordered.sorted hn
    exact ⟨hsorted, _, hordered, hfinite, hn⟩

/-! ## Documents that read back -/

/-- What it takes for a document to be read back from its members in the format. -/
structure ReadsBack (embed : Json → α) (d : Document) : Prop where
  wellFormed : d.WellFormed
  finite : (Json.object d.data).Finite
  get?_apiVersion : Members.get? "apiVersion" d.data = none
  get?_kind : Members.get? "kind" d.data = none
  sorted_metadata : Members.Sorted d.metadata
  metadata : Kubernetes.objectMeta.read (embed (.object d.metadata)) = .ok (.object d.metadata)

theorem FromFiniteJson.finite (h : d.FromFiniteJson) : (Json.object d.data).Finite := by
  obtain ⟨j, hj, hread⟩ := h
  obtain ⟨-, hdata⟩ := data_of_read hread
  exact Json.finite_object_iff.mpr fun m hm => (hj m (hdata m hm).1).2

/-- A document from JSON reads back, unless its data would be taken for its type. -/
theorem FromFiniteJson.readsBack (hc : Carries embed) (h : d.FromFiniteJson)
    (hversion : Members.get? "apiVersion" d.data = none)
    (hkind : Members.get? "kind" d.data = none) : d.ReadsBack embed := by
  obtain ⟨hsorted, x, hordered, hfinite, hx⟩ := h.metadata
  have hregular : Kubernetes.objectMeta.Regular := by decide
  have hmetadata := (Shape.stable hc _ hregular x _ hordered hfinite hx).1
  exact ⟨h.fromJson.wellFormed, h.finite, hversion, hkind, hsorted, hmetadata⟩

/-! ## The two visits -/

/-- Entries that are not the metadata are kept in front of what follows them. -/
theorem keep_append (hc : Carries embed) {metadata : Option (Members Json)}
    (h : ∀ m ∈ ms, m.1 ≠ "metadata") (es : List (Key × α)) :
    keep metadata (textEntries (Members.mapValues embed ms) ++ es) =
      (keep metadata es).map fun kept =>
        { kept with others := Members.mapValues embed ms ++ kept.others } := by
  induction ms with
  | nil =>
    show keep metadata es = (keep metadata es).map id
    cases keep metadata es <;> rfl
  | cons m ms ih =>
    have hm : m.1 ≠ "metadata" := h m List.mem_cons_self
    have htail := ih fun m hm => h m (List.mem_cons_of_mem _ hm)
    show keep metadata ((.text m.1, embed m.2) ::
      (textEntries (Members.mapValues embed ms) ++ es)) = _
    rw [keep, if_neg hm, hc.keepable, htail]
    cases keep metadata es <;> rfl

/-- The metadata is read where it stands, and the entries behind it are kept. -/
theorem keep_metadata {v : α} {n : Json} {es : List (Key × α)}
    (hv : Kubernetes.objectMeta.read v = .ok n) :
    keep none ((.text "metadata", v) :: es) = keep (some n.members) es := by
  rw [keep, if_pos rfl, if_neg (by simp), hv]
  rfl

/-- Entries that do not tell the type are left as they are. -/
theorem takeTypes_of_not_tellsType {taken : Members String} {es : List (String × α)}
    (h : ∀ e ∈ es, tellsType e.1 = false) : takeTypes taken es = (typesOf taken, es) := by
  induction es with
  | nil => rfl
  | cons e es ih =>
    obtain ⟨name, v⟩ := e
    have hname : tellsType name = false := h _ List.mem_cons_self
    have htail := ih fun e he => h e (List.mem_cons_of_mem _ he)
    rw [takeTypes, if_neg (by simp [hname]), htail]

/-- A text is taken, if it tells the type and none was taken for its name. -/
theorem takeTypes_of_text {taken : Members String} {name s : String} {v : α}
    {es : List (String × α)} (hname : tellsType name = true)
    (htaken : Members.get? name taken = none) (hv : text? v = some s) :
    takeTypes taken ((name, v) :: es) = takeTypes ((name, s) :: taken) es := by
  rw [takeTypes, if_pos hname, htaken, hv]

/-- The data is read one member after the other. -/
theorem readData_mapValues (hc : Carries embed) {ms : Members Json}
    (h : ∀ m ∈ ms, m.2.Ordered ∧ m.2.Finite) (acc : Members Json) :
    readData acc (Members.mapValues embed ms) = .ok (Members.putAll acc ms) := by
  induction ms generalizing acc with
  | nil => rfl
  | cons m ms ih =>
    obtain ⟨hordered, hfinite⟩ := h m List.mem_cons_self
    have htail := ih fun m hm => h m (List.mem_cons_of_mem _ hm)
    show readData acc ((m.1, embed m.2) :: Members.mapValues embed ms) = _
    rw [readData, hc.free _ hordered hfinite]
    exact htail _

/-! ## Reading back -/

/-- The members that tell the type. -/
def typeMembers : Option TypeMeta → Members Json
  | some t => [("apiVersion", .text t.apiVersion), ("kind", .text t.kind)]
  | none => []

theorem entries_eq (d : Document) :
    d.entries = typeMembers d.types ++ ("metadata", .object d.metadata) :: d.data := by
  obtain ⟨types, metadata, data⟩ := d
  cases types <;> rfl

/-- The type is taken from its members, and what does not tell the type is left. -/
theorem takeTypes_typeMembers (hc : Carries embed) (types : Option TypeMeta)
    {es : List (String × α)} (h : ∀ e ∈ es, tellsType e.1 = false) :
    takeTypes [] (Members.mapValues embed (typeMembers types) ++ es) = (types, es) := by
  cases types with
  | none => exact takeTypes_of_not_tellsType h
  | some t =>
    have htext : ∀ s, text? (embed (.text s)) = some s := by
      intro s
      rw [text?, hc.layer]
      rfl
    show takeTypes [] (("apiVersion", embed (.text t.apiVersion)) ::
      ("kind", embed (.text t.kind)) :: es) = _
    rw [takeTypes_of_text rfl rfl (htext _), takeTypes_of_text rfl rfl (htext _),
      takeTypes_of_not_tellsType h]
    rfl

/-- **A document is read back from its members.** -/
theorem ReadsBack.read (hc : Carries embed) (h : d.ReadsBack embed) :
    Document.read (embed (.object d.entries)) = .ok d := by
  obtain ⟨types, metadata, data⟩ := d
  have hentries : entries ⟨types, metadata, data⟩ =
      typeMembers types ++ ("metadata", .object metadata) :: data := entries_eq _
  -- the names of the type are not the metadata, and those of the data are none of the three
  have htypes : ∀ m ∈ typeMembers types, m.1 ≠ "metadata" := by
    cases types <;> simp [typeMembers]
  have hdata : ∀ m ∈ data, m.1 ≠ "metadata" :=
    Members.get?_eq_none_iff.mp h.wellFormed.get?_metadata
  have hleft : ∀ e ∈ Members.mapValues embed data, tellsType e.1 = false := by
    intro e he
    obtain ⟨m, hm, rfl⟩ := List.mem_map.mp he
    have hversion := Members.get?_eq_none_iff.mp h.get?_apiVersion m hm
    have hkind := Members.get?_eq_none_iff.mp h.get?_kind m hm
    simp [tellsType, hversion, hkind]
  have hkeep : keep none (textEntries (Members.mapValues embed
      (entries ⟨types, metadata, data⟩))) = .ok ⟨some metadata,
        Members.mapValues embed (typeMembers types) ++ Members.mapValues embed data⟩ := by
    have hsplit : textEntries (Members.mapValues embed (entries ⟨types, metadata, data⟩)) =
        textEntries (Members.mapValues embed (typeMembers types)) ++
          (.text "metadata", embed (.object metadata)) ::
            (textEntries (Members.mapValues embed data) ++ []) := by
      simp [hentries, textEntries, Members.mapValues]
    rw [hsplit, keep_append hc htypes, keep_metadata h.metadata, keep_append hc hdata]
    simp [keep, Except.map, Json.members]
  have hread : readData [] (Members.mapValues embed data) = .ok data := by
    rw [readData_mapValues hc fun m hm => ?_, h.wellFormed.sorted.putAll_nil]
    exact ⟨(Json.ordered_object_iff.mp h.wellFormed.ordered).2 m hm,
      Json.finite_object_iff.mp h.finite m hm⟩
  unfold Document.read
  rw [Shape.mapEntries_object hc]
  show (keep none _ >>= _) = _
  rw [hkeep]
  show (readData [] (takeTypes [] (_ ++ _)).2 >>= _) = _
  rw [takeTypes_typeMembers hc types hleft, hread]
  rfl

end WorkloadEnv.Document
