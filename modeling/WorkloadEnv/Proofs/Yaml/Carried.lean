import WorkloadEnv.Proofs.Decode.Stable
import WorkloadEnv.Yaml.Value

/-! # JSON values in YAML

    Each JSON value has a counterpart in YAML, without tags and with texts as
    keys.  It is what stands in a document that is written for the value, and
    typed readers find in it what they find in the value (`carries_ofJson`). -/

namespace WorkloadEnv.Yaml.Value

mutual

/-- The counterpart of a JSON value. -/
def ofJson : Json → Value
  | .null => .null
  | .bool b => .bool b
  | .int n => .int n
  | .float x => .float x
  | .text s => .text s
  | .list js => .list (ofItems js)
  | .object ms => .map (ofMembers ms)

def ofItems : List Json → List Value
  | [] => []
  | j :: js => ofJson j :: ofItems js

def ofMembers : List (String × Json) → List (Value × Value)
  | [] => []
  | (name, j) :: ms => (.text name, ofJson j) :: ofMembers ms

end

theorem ofItems_eq_map (js : List Json) : ofItems js = js.map ofJson := by
  induction js with
  | nil => rfl
  | cons j js ih => rw [ofItems, ih, List.map_cons]

theorem ofMembers_eq_map (ms : Members Json) :
    ofMembers ms = ms.map fun m => (.text m.1, ofJson m.2) := by
  induction ms with
  | nil => rfl
  | cons m ms ih =>
    obtain ⟨name, j⟩ := m
    rw [ofMembers, ih, List.map_cons]

theorem layer_ofJson (j : Json) : (ofJson j).layer = j.layer.carry ofJson := by
  cases j with
  | list js =>
    rw [ofJson, ofItems_eq_map]
    rfl
  | object ms =>
    rw [ofJson, ofMembers_eq_map]
    simp [layer, Json.layer, Layer.carry, key, untag, Function.comp_def]
  | _ => rfl

theorem absent_ofJson (j : Json) : Source.absent (ofJson j) = j.isNull := by
  cases j with
  | list js =>
    rw [ofJson]
    rfl
  | object ms =>
    rw [ofJson]
    rfl
  | _ => rfl

/-! ## Free-form data -/

mutual

/-- There are no tags in a counterpart. -/
theorem checkUntagged_ofJson : ∀ j : Json, checkUntagged (ofJson j) = .ok ()
  | .null | .bool _ | .int _ | .float _ | .text _ => rfl
  | .list js => by
    rw [ofJson, checkUntagged]
    exact checkItems_ofItems js
  | .object ms => by
    rw [ofJson, checkUntagged]
    exact checkEntries_ofMembers ms

theorem checkItems_ofItems : ∀ js : List Json, checkItems (ofItems js) = .ok ()
  | [] => rfl
  | j :: js => by
    rw [ofItems, checkItems, checkUntagged_ofJson j]
    exact checkItems_ofItems js

theorem checkEntries_ofMembers : ∀ ms : List (String × Json), checkEntries (ofMembers ms) = .ok ()
  | [] => rfl
  | (name, j) :: ms => by
    rw [ofMembers, checkEntries, checkUntagged_ofJson j]
    exact checkEntries_ofMembers ms

end

mutual

/-- As data, the counterpart is the value again, if its numbers are finite. -/
theorem free_ofJson : ∀ j : Json, j.Ordered → j.Finite → free (ofJson j) = .ok j
  | .null, _, _ | .bool _, _, _ | .int _, _, _ | .text _, _, _ => rfl
  | .float x, _, hfinite => by
    have hx : x.isFinite = true := hfinite
    rw [ofJson, free, if_pos hx]
  | .list js, hordered, hfinite => by
    rw [ofJson, free, freeItems_ofItems js hordered hfinite]
    rfl
  | .object ms, hordered, hfinite => by
    rw [ofJson, free, freeEntries_ofMembers ms hordered.2 hfinite, hordered.1.putAll_nil]
    rfl

theorem freeItems_ofItems : ∀ js : List Json, Json.OrderedItems js → Json.FiniteItems js →
    freeItems (ofItems js) = .ok js
  | [], _, _ => rfl
  | j :: js, hordered, hfinite => by
    rw [ofItems, freeItems, free_ofJson j hordered.1 hfinite.1,
      freeItems_ofItems js hordered.2 hfinite.2]
    rfl

/-- The members are set one after the other, behind those there are. -/
theorem freeEntries_ofMembers {expected : String} {acc : Members Json} :
    ∀ ms : List (String × Json), Json.OrderedMembers ms → Json.FiniteMembers ms →
      freeEntries expected acc (ofMembers ms) = .ok (Members.putAll acc ms)
  | [], _, _ => rfl
  | (name, j) :: ms, hordered, hfinite => by
    rw [ofMembers, freeEntries]
    show (free (ofJson j) >>= fun j => freeEntries "a string" (Members.put name j acc)
      (ofMembers ms)) = _
    rw [free_ofJson j hordered.1 hfinite.1]
    exact freeEntries_ofMembers ms hordered.2 hfinite.2

end

/-- **YAML carries JSON values.** -/
theorem carries_ofJson : Carries ofJson where
  layer := layer_ofJson
  absent := absent_ofJson
  keepable := checkUntagged_ofJson
  free := free_ofJson

end WorkloadEnv.Yaml.Value
