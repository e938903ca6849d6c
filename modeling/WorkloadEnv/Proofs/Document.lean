import WorkloadEnv.Document.Reader
import WorkloadEnv.Proofs.Decode.Path
import WorkloadEnv.Proofs.Json.Reader

/-! # Documents decoded from JSON

    What holds of every document that was decoded from a JSON value, and stays
    true when it is changed: its data is ordered and holds no metadata
    (`WellFormed`), so encoding puts each part in a place of its own.  A change
    of the data is a change at the same path of the encoded document
    (`toJson_modifyData`), and so is leaving out a member of the metadata
    (`toJson_eraseMetadata`). -/

namespace WorkloadEnv.Document

variable {d : Document} {name member : String} {path : List String} {ms : Members Json}

/-- The document was decoded from a JSON value.  Its own members may stand in any
    order and repeat a name; below them the names of an object are distinct and
    increasing, as they are in every JSON value that is kept as data. -/
def FromJson (d : Document) : Prop :=
  ∃ j : Json, (∀ m ∈ j.members, m.2.Ordered) ∧ Document.read j = .ok d

/-! ## Where the data comes from -/

/-- What is kept for the data stood there before, and is not the metadata. -/
theorem mem_keep {metadata : Option (Members Json)} {kept : Kept Json}
    (h : keep metadata (Shape.textEntries ms) = .ok kept) :
    ∀ m ∈ kept.others, m ∈ ms ∧ m.1 ≠ "metadata" := by
  induction ms generalizing metadata kept with
  | nil =>
    cases h
    intro m hm
    cases hm
  | cons e ms ih =>
    obtain ⟨n, v⟩ := e
    change keep metadata ((.text n, v) :: Shape.textEntries ms) = .ok kept at h
    rw [keep] at h
    have hcons : ∀ {kept : Kept Json}, (∀ m ∈ kept.others, m ∈ ms ∧ m.1 ≠ "metadata") →
        ∀ m ∈ kept.others, m ∈ (n, v) :: ms ∧ m.1 ≠ "metadata" := by
      intro kept hall m hm
      obtain ⟨hmem, hne⟩ := hall m hm
      exact ⟨List.mem_cons_of_mem _ hmem, hne⟩
    split at h
    · -- the metadata is read, and not kept with the others
      split at h
      · cases h
      · obtain ⟨j, -, h⟩ := bind_eq_ok_iff.mp h
        exact hcons (ih h)
    · next hn =>
      obtain ⟨-, -, h⟩ := bind_eq_ok_iff.mp h
      obtain ⟨kept', hkept', h⟩ := bind_eq_ok_iff.mp h
      cases h
      intro m hm
      rcases List.mem_cons.mp hm with rfl | hm
      · exact ⟨List.mem_cons_self, hn⟩
      · exact hcons (ih hkept') m hm

theorem takeTypes_sublist {α : Type} [Source α] (taken : Members String)
    (es : List (String × α)) :
    (takeTypes taken es).2.Sublist es := by
  induction es generalizing taken with
  | nil => exact List.Sublist.refl _
  | cons e es ih =>
    obtain ⟨n, v⟩ := e
    rw [takeTypes]
    split
    · split
      · exact (ih _).cons _
      · exact (List.Sublist.refl es).cons _
    · exact (ih taken).cons_cons _

theorem mem_readData {acc data : Members Json} {es : List (String × Json)}
    (h : readData acc es = .ok data) : ∀ m ∈ data, m ∈ acc ∨ m ∈ es := by
  induction es generalizing acc with
  | nil =>
    cases h
    exact fun m hm => .inl hm
  | cons e es ih =>
    obtain ⟨n, v⟩ := e
    intro m hm
    rcases ih h m hm with hm | hm
    · rcases Members.mem_put hm with rfl | hm
      · exact .inr List.mem_cons_self
      · exact .inl hm
    · exact .inr (List.mem_cons_of_mem _ hm)

theorem sorted_readData {acc data : Members Json} {es : List (String × Json)}
    (hacc : Members.Sorted acc) (h : readData acc es = .ok data) : Members.Sorted data := by
  induction es generalizing acc with
  | nil =>
    cases h
    exact hacc
  | cons e es ih => exact ih hacc.put h

/-- **The passes of reading a document.**  The metadata is read from the entries, the
    type is taken from those that are left, and the rest is the data. -/
theorem read_eq_ok_iff {α : Type} [Source α] {v : α} :
    Document.read v = .ok d ↔ ∃ es kept data,
      Shape.mapEntries "struct DynamicObject" v = .ok es ∧ keep none es = .ok kept ∧
      readData [] (takeTypes [] kept.others).2 = .ok data ∧
      d = ⟨(takeTypes [] kept.others).1, kept.metadata.getD [], data⟩ := by
  constructor
  · intro h
    obtain ⟨es, hes, h⟩ := bind_eq_ok_iff.mp h
    obtain ⟨kept, hkept, h⟩ := bind_eq_ok_iff.mp h
    obtain ⟨data, hdata, h⟩ := bind_eq_ok_iff.mp h
    exact ⟨es, kept, data, hes, hkept, hdata, (Except.ok.inj h).symm⟩
  · rintro ⟨es, kept, data, hes, hkept, hdata, rfl⟩
    exact bind_eq_ok_iff.mpr ⟨es, hes, bind_eq_ok_iff.mpr ⟨kept, hkept,
      bind_eq_ok_iff.mpr ⟨data, hdata, rfl⟩⟩⟩

/-- The data of a document holds members of the value it was decoded from, in
    increasing order, and never the metadata. -/
theorem data_of_read {j : Json} (h : Document.read j = .ok d) :
    Members.Sorted d.data ∧ ∀ m ∈ d.data, m ∈ j.members ∧ m.1 ≠ "metadata" := by
  obtain ⟨es, kept, data, hes, hkept, hdata, rfl⟩ := read_eq_ok_iff.mp h
  obtain ⟨ms, rfl, rfl⟩ := Shape.mapEntries_eq_ok_iff.mp hes
  refine ⟨sorted_readData List.Pairwise.nil hdata, fun m hm => ?_⟩
  -- back through the three passes: the data, the types, the metadata
  rcases mem_readData hdata m hm with hm | hm
  · cases hm
  · exact mem_keep hkept m ((takeTypes_sublist _ _).subset hm)

theorem fromJson_of_ordered {j : Json} (hj : j.Ordered) (hd : Document.read j = .ok d) :
    d.FromJson := by
  refine ⟨j, fun m hm => ?_, hd⟩
  cases j with
  | object ms => exact (Json.ordered_object_iff.mp hj).2 m hm
  | _ => cases hm

/-- Documents that are decoded from a JSON text are among them. -/
theorem fromJson_of_parse {s : String} {j : Json} (hj : Json.parse s = .ok j)
    (hd : Document.read j = .ok d) : d.FromJson :=
  fromJson_of_ordered (Json.ordered_of_parse hj) hd

/-- The data is ordered at every depth, and no member of it is called metadata. -/
structure WellFormed (d : Document) : Prop where
  ordered : (Json.object d.data).Ordered
  get?_metadata : Members.get? "metadata" d.data = none

theorem FromJson.wellFormed (h : d.FromJson) : d.WellFormed := by
  obtain ⟨j, hj, hd⟩ := h
  obtain ⟨hs, hall⟩ := data_of_read hd
  constructor
  · exact Json.ordered_object_iff.mpr ⟨hs, fun m hm => hj m (hall m hm).1⟩
  · exact Members.get?_eq_none_iff.mpr fun m hm => (hall m hm).2

namespace WellFormed

theorem sorted (h : d.WellFormed) : Members.Sorted d.data := h.ordered.sorted

theorem eraseMetadata (h : d.WellFormed) (member : String) :
    (d.eraseMetadata member).WellFormed := ⟨h.ordered, h.get?_metadata⟩

theorem modifyData (h : d.WellFormed) (hname : name ≠ "metadata") {f : Json → Json}
    (hf : ∀ x : Json, x.Ordered → (f x).Ordered) :
    (d.modifyData (name :: path) f).WellFormed := by
  constructor
  · show ((Json.object d.data).modifyAt f (name :: path)).Ordered
    exact h.ordered.modifyAt hf
  · exact (Members.get?_modify_ne hname.symm d.data).trans h.get?_metadata

end WellFormed

/-! ## Encoding -/

/-- The names of the members that are not data. -/
def headerNames : List String := ["apiVersion", "kind", "metadata"]

/-- The type and the metadata of a document, as members. -/
def header (d : Document) : Members Json :=
  (match d.types with
    | some t => [("apiVersion", .text t.apiVersion), ("kind", .text t.kind)]
    | none => []) ++ [("metadata", .object d.metadata)]

theorem toJson_eq (d : Document) : d.toJson = .object (Members.putAll d.header d.data) := rfl

theorem map_fst_header_sublist (d : Document) : (d.header.map Prod.fst).Sublist headerNames := by
  obtain ⟨types, metadata, data⟩ := d
  cases types with
  | none => exact List.sublist_append_right ["apiVersion", "kind"] ["metadata"]
  | some t => exact List.Sublist.refl _

theorem sorted_header (d : Document) : Members.Sorted d.header := by
  have hnames : headerNames.Pairwise (· < ·) := by decide
  exact Members.sorted_iff_map_fst.mpr (hnames.sublist d.map_fst_header_sublist)

theorem get?_header_eq_none (h : name ∉ headerNames) : Members.get? name d.header = none := by
  rw [Members.get?_eq_none_iff_notMem]
  intro hmem
  exact h (d.map_fst_header_sublist.subset hmem)

theorem get?_metadata_header (d : Document) :
    Members.get? "metadata" d.header = some (.object d.metadata) := by
  obtain ⟨types, metadata, data⟩ := d
  cases types <;> rfl

theorem sorted_toJson (d : Document) : Members.Sorted (Members.putAll d.header d.data) :=
  d.sorted_header.putAll

/-- A member of the encoded document is one of the data, else one of the header. -/
theorem WellFormed.get?_toJson (h : d.WellFormed) :
    d.toJson.get? name = (Members.get? name d.data).or (Members.get? name d.header) := by
  rw [toJson_eq, Json.get?_object]
  exact Members.get?_putAll h.sorted.nodup d.header

theorem WellFormed.get?_metadata_toJson (h : d.WellFormed) :
    d.toJson.get? "metadata" = some (.object d.metadata) := by
  rw [h.get?_toJson, h.get?_metadata, Option.none_or, get?_metadata_header]

/-- Below the names of the data, the encoded document is the data. -/
theorem WellFormed.at?_toJson (h : d.WellFormed) (hname : name ∉ headerNames) :
    d.toJson.at? (name :: path) = (Json.object d.data).at? (name :: path) := by
  rw [Json.at?_cons, Json.at?_cons, h.get?_toJson, get?_header_eq_none hname, Option.or_none]
  rfl

theorem WellFormed.sortedAlong_toJson (h : d.WellFormed) (hname : name ∉ headerNames) :
    d.toJson.SortedAlong (name :: path) := by
  refine ⟨d.sorted_toJson, fun x hx => ?_⟩
  rw [h.get?_toJson, get?_header_eq_none hname, Option.or_none] at hx
  exact (h.ordered.get? hx).sortedAlong path

/-- **A change of the data is a change of the encoded document.** -/
theorem toJson_modifyData (h : name ∉ headerNames) (f : Json → Json) (d : Document) :
    (d.modifyData (name :: path) f).toJson = d.toJson.modifyAt f (name :: path) := by
  rw [toJson_eq, toJson_eq, Json.modifyAt_object, Members.modify_putAll,
    Members.modify_of_get?_eq_none (get?_header_eq_none h)]
  rfl

/-- **Leaving out a member of the metadata is a change of the encoded document.** -/
theorem WellFormed.toJson_eraseMetadata (h : d.WellFormed) (member : String) :
    (d.eraseMetadata member).toJson =
      d.toJson.modifyAt (Json.eraseMember member) ["metadata"] := by
  have hheader : (d.eraseMetadata member).header =
      Members.modify "metadata" (Json.modifyAt (Json.eraseMember member) []) d.header := by
    obtain ⟨types, metadata, data⟩ := d
    cases types <;> rfl
  rw [toJson_eq, toJson_eq, Json.modifyAt_object, Members.modify_putAll,
    Members.modify_of_get?_eq_none h.get?_metadata, hheader]
  rfl

/-! ## Changing the data -/

/-- Two changes at one path are one change. -/
theorem modifyData_modifyData (f g : Json → Json) (d : Document) :
    (d.modifyData (name :: path) g).modifyData (name :: path) f =
      d.modifyData (name :: path) (f ∘ g) := by
  show Document.mk _ _ _ = Document.mk _ _ _
  rw [← Json.modifyAt_modifyAt_self]
  rfl

@[simp] theorem modifyData_id (d : Document) : d.modifyData path id = d := by
  rw [modifyData, Json.modifyAt_id]
  rfl

/-- Only what happens at the end of the path counts. -/
theorem WellFormed.modifyData_congr {f g : Json → Json} (h : d.WellFormed)
    (hfg : ∀ x, (Json.object d.data).at? path = some x → f x = g x) :
    d.modifyData path f = d.modifyData path g := by
  rw [Document.modifyData, Document.modifyData,
    Json.modifyAt_congr (h.ordered.sortedAlong path) hfg]

@[simp] theorem eraseMetadata_eraseMetadata (d : Document) :
    (d.eraseMetadata member).eraseMetadata member = d.eraseMetadata member := by
  rw [eraseMetadata, eraseMetadata, Members.erase_erase_self]

/-- Changes of the data and of the metadata pass each other. -/
theorem modifyData_eraseMetadata (f : Json → Json) (d : Document) :
    (d.eraseMetadata member).modifyData path f = (d.modifyData path f).eraseMetadata member := rfl

end WorkloadEnv.Document
