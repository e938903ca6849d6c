import WorkloadEnv.EnvVar.Basic
import WorkloadEnv.Proofs.Decode.Path

/-! # Variables as they are written and read

    A variable is written as the members that are present, in the order of its
    shape.  Such an object is its own normal form (`Shape.normal_ofPresent`), so
    what is written reads back as it was (`EnvVar.read_toJson`). -/

namespace WorkloadEnv

/-! ## Objects of the members that are present -/

namespace Shape

variable {members : Members (Presence × Shape)} {vs : List (String × Option Json)}
variable {name : String} {p : Presence × Shape}

/-- The value is ordered, and its own normal form under the shape. -/
structure Normal (s : Shape) (x : Json) : Prop where
  isNull : x.isNull = false
  ordered : x.Ordered
  read : s.read x = .ok x

/-- A value that may stand for the member of a record: one that is its own normal
    form, or none where the member may be missing. -/
def Fits (p : Presence × Shape) : Option Json → Prop
  | some x => p.2.Normal x
  | none => p.1 = .optional

/-- The values stand for the members of a record, one for one. -/
def FitsAll (members : Members (Presence × Shape)) (vs : List (String × Option Json)) : Prop :=
  List.Forall₂ (fun m v => m.1 = v.1 ∧ Fits m.2 v.2) members vs

theorem members_ofPresent (vs : List (String × Option Json)) :
    (Json.ofPresent vs).members = vs.filterMap fun v => v.2.map (v.1, ·) := rfl

/-- The names that are present are some of those of the record. -/
theorem FitsAll.map_fst_sublist (h : FitsAll members vs) :
    ((Json.ofPresent vs).members.map Prod.fst).Sublist (members.map Prod.fst) := by
  rw [members_ofPresent]
  induction h with
  | nil => exact List.Sublist.refl _
  | @cons m v members vs hm _ ih =>
    obtain ⟨n, v⟩ := v
    rw [List.filterMap_cons]
    cases v with
    | none => exact ih.cons _
    | some x =>
      obtain rfl : m.1 = n := hm.1
      exact ih.cons_cons _

theorem FitsAll.sorted (h : FitsAll members vs) (hs : Members.Sorted members) :
    Members.Sorted (Json.ofPresent vs).members := by
  rw [Members.sorted_iff_map_fst] at hs ⊢
  exact hs.sublist h.map_fst_sublist

/-- What is found under the name of a member stands for it. -/
theorem FitsAll.fits (h : FitsAll members vs) (hs : Members.Sorted members)
    (hp : Members.get? name members = some p) : Fits p ((Json.ofPresent vs).get? name) := by
  show Fits p (Members.get? name (Json.ofPresent vs).members)
  induction h with
  | nil => cases hp
  | @cons m v members vs hm hrest ih =>
    obtain ⟨n, v⟩ := v
    obtain ⟨hname, hfits⟩ := hm
    obtain rfl : m.1 = n := hname
    rw [members_ofPresent] at ih ⊢
    rw [List.filterMap_cons]
    rw [Members.get?_cons] at hp
    by_cases hn : m.1 = name
    · rw [if_pos hn, Option.some.injEq] at hp
      cases v with
      | some x =>
        rw [Option.map_some, Members.get?_cons, if_pos hn]
        exact hp ▸ hfits
      | none =>
        -- no later member has the name
        have hnone : Members.get? name (vs.filterMap fun v => v.2.map (v.1, ·)) = none := by
          have hlater := Members.get?_eq_none_iff_notMem.mp hs.get?_tail
          rw [Members.get?_eq_none_iff_notMem, ← hn]
          intro hmem
          exact hlater ((FitsAll.map_fst_sublist hrest).subset hmem)
        rw [Option.map_none, hnone]
        exact hp ▸ hfits
    · rw [if_neg hn] at hp
      cases v with
      | none => exact ih hs.tail hp
      | some x =>
        rw [Option.map_some, Members.get?_cons, if_neg hn]
        exact ih hs.tail hp

/-- What is there under a name belongs to a member of the record and is normal. -/
theorem FitsAll.normal_of_mem (h : FitsAll members vs) (hs : Members.Sorted members) {x : Json}
    (hx : (name, x) ∈ (Json.ofPresent vs).members) :
    ∃ p, Members.get? name members = some p ∧ p.2.Normal x := by
  have hmem := h.map_fst_sublist.subset (List.mem_map_of_mem (f := Prod.fst) hx)
  obtain ⟨⟨_, p⟩, hm, rfl⟩ := List.mem_map.mp hmem
  have hp := Members.get?_of_mem hs.nodup hm
  have hfits := h.fits hs hp
  have hget : (Json.ofPresent vs).get? _ = some x := Members.get?_of_mem (h.sorted hs).nodup hx
  rw [hget] at hfits
  exact ⟨p, hp, hfits⟩

theorem FitsAll.ordered (h : FitsAll members vs) (hs : Members.Sorted members) :
    (Json.ofPresent vs).Ordered := by
  refine Json.ordered_object_iff.mpr ⟨h.sorted hs, fun m hm => ?_⟩
  obtain ⟨p, -, hnormal⟩ := h.normal_of_mem hs hm
  exact hnormal.ordered

/-- **What is written from the values of a record is its own normal form.** -/
theorem normal_ofPresent {record : String} (hw : WellNamed [] members) (h : FitsAll members vs) :
    (Shape.record record [] members).Normal (Json.ofPresent vs) := by
  have hs := h.sorted hw.sorted
  refine ⟨rfl, h.ordered hw.sorted, (read_record_iff hw hs).mpr ⟨?_, congrArg Json.object ?_⟩⟩
  · intro m hm
    obtain ⟨p, hp, hnormal⟩ := h.normal_of_mem hw.sorted hm
    exact (entryReads_known rfl hp).mpr (.inr ⟨m.2, hnormal.read⟩)
  · -- both sides are sorted, so it is enough to look each name up
    refine Members.Sorted.ext hs (sorted_normalForm hw) fun name => ?_
    rw [get?_normalForm hw, Members.get?_nil, Option.map_none, Option.none_or]
    cases hp : Members.get? name members with
    | none =>
      rw [Option.bind_none, Members.get?_eq_none_iff]
      intro m hm heq
      obtain ⟨p, hp', -⟩ := h.normal_of_mem hw.sorted hm
      rw [heq, hp] at hp'
      cases hp'
    | some p =>
      have hfits := h.fits hw.sorted hp
      rw [Option.bind_some]
      cases hx : Members.get? name (Json.ofPresent vs).members with
      | some x =>
        rw [Json.get?, hx] at hfits
        have hnormal : p.2.Normal x := hfits
        exact hx.trans (memberValue_of_read hx hnormal.isNull hnormal.read).symm
      | none =>
        rw [Json.get?, hx] at hfits
        have hmissing : missing p = none := by simp [missing, show p.1 = .optional from hfits]
        rw [memberValue_of_absent fun x hx' => absurd (hx.symm.trans hx') (by simp), hmissing]
        exact hx

end Shape

/-! ## Where a value is taken from -/

open Kubernetes

theorem Shape.fits_text (presence : Presence) (s : String) :
    Shape.Fits (presence, .text) (some (.text s)) := ⟨rfl, trivial, rfl⟩

theorem Shape.fits_text? (s : Option String) :
    Shape.Fits (.optional, .text) (s.map .text) := by
  cases s with
  | none => rfl
  | some s => exact ⟨rfl, trivial, rfl⟩

theorem Shape.fits_bool? (b : Option Bool) :
    Shape.Fits (.optional, .bool) (b.map .bool) := by
  cases b with
  | none => rfl
  | some b => exact ⟨rfl, trivial, rfl⟩

/-- A part that is written as its own normal form stands for an optional member. -/
theorem Shape.fits_part {β : Type} {s : Shape} {toJson : β → Json} (b : Option β)
    (h : ∀ b, s.Normal (toJson b)) : Shape.Fits (.optional, s) (b.map toJson) := by
  cases b with
  | none => rfl
  | some b => exact h b

namespace KeySelector

theorem fitsAll (s : KeySelector) :
    Shape.FitsAll [must "key" .text, must "name" .text, may "optional" .bool]
      [("key", some (.text s.key)), ("name", some (.text s.name)),
        ("optional", s.isOptional.map .bool)] :=
  .cons ⟨rfl, Shape.fits_text _ _⟩ <| .cons ⟨rfl, Shape.fits_text _ _⟩ <|
    .cons ⟨rfl, Shape.fits_bool? _⟩ .nil

theorem normal_configMap_toJson (s : KeySelector) : configMapKeySelector.Normal s.toJson :=
  Shape.normal_ofPresent (by decide) s.fitsAll

theorem normal_secret_toJson (s : KeySelector) : secretKeySelector.Normal s.toJson :=
  Shape.normal_ofPresent (by decide) s.fitsAll

@[simp] theorem ofNormal_toJson (s : KeySelector) : ofNormal s.toJson = s := by
  obtain ⟨key, name, isOptional⟩ := s
  cases isOptional <;> rfl

end KeySelector

namespace FieldSelector

theorem normal_toJson (s : FieldSelector) : objectFieldSelector.Normal s.toJson :=
  Shape.normal_ofPresent (by decide) <|
    .cons ⟨rfl, Shape.fits_text? _⟩ <| .cons ⟨rfl, Shape.fits_text _ _⟩ .nil

@[simp] theorem ofNormal_toJson (s : FieldSelector) : ofNormal s.toJson = s := by
  obtain ⟨apiVersion, fieldPath⟩ := s
  cases apiVersion <;> rfl

end FieldSelector

namespace ResourceSelector

theorem normal_toJson (s : ResourceSelector) : resourceFieldSelector.Normal s.toJson :=
  Shape.normal_ofPresent (by decide) <|
    .cons ⟨rfl, Shape.fits_text? _⟩ <| .cons ⟨rfl, Shape.fits_text? _⟩ <|
      .cons ⟨rfl, Shape.fits_text _ _⟩ .nil

@[simp] theorem ofNormal_toJson (s : ResourceSelector) : ofNormal s.toJson = s := by
  obtain ⟨containerName, divisor, resource⟩ := s
  cases containerName <;> cases divisor <;> rfl

end ResourceSelector

namespace EnvVarSource

theorem normal_toJson (s : EnvVarSource) : envVarSource.Normal s.toJson :=
  Shape.normal_ofPresent (by decide) <|
    .cons ⟨rfl, Shape.fits_part _ KeySelector.normal_configMap_toJson⟩ <|
    .cons ⟨rfl, Shape.fits_part _ FieldSelector.normal_toJson⟩ <|
    .cons ⟨rfl, Shape.fits_part _ ResourceSelector.normal_toJson⟩ <|
    .cons ⟨rfl, Shape.fits_part _ KeySelector.normal_secret_toJson⟩ .nil

@[simp] theorem ofNormal_toJson (s : EnvVarSource) : ofNormal s.toJson = s := by
  obtain ⟨configMap, field, resource, secret⟩ := s
  cases configMap <;> cases field <;> cases resource <;> cases secret <;>
    simp [ofNormal, toJson, Json.ofPresent, Members.get?]

end EnvVarSource

/-! ## Variables -/

namespace EnvVar

/-- A variable is written as its own normal form. -/
theorem normal_toJson (e : EnvVar) : envVar.Normal e.toJson :=
  Shape.normal_ofPresent (by decide) <|
    .cons ⟨rfl, Shape.fits_text _ _⟩ <| .cons ⟨rfl, Shape.fits_text? _⟩ <|
      .cons ⟨rfl, Shape.fits_part _ EnvVarSource.normal_toJson⟩ .nil

@[simp] theorem ofNormal_toJson (e : EnvVar) : ofNormal e.toJson = e := by
  obtain ⟨name, value, valueFrom⟩ := e
  cases value <;> cases valueFrom <;>
    simp [ofNormal, toJson, Json.ofPresent, Json.textAt, Json.textAt?, Members.get?, Json.text?]

/-- **What is written of a variable reads as the variable.** -/
theorem read_toJson (e : EnvVar) : read e.toJson = .ok e := by
  rw [read, e.normal_toJson.read]
  exact congrArg Except.ok (ofNormal_toJson e)

end EnvVar

end WorkloadEnv
