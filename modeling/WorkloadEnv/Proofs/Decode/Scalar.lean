import WorkloadEnv.Decode.Shape

/-! # Reading scalars

    When a scalar is read and what is read then, told by the one level of the
    value that is looked at.  This holds of every format, so what is said of the
    scalars of one of them follows from these. -/

namespace WorkloadEnv

namespace Shape

variable {α : Type} [Source α] {v : α} {n : Json}

theorem read_text_iff : text.read v = .ok n ↔ ∃ s, Source.layer v = .text s ∧ n = .text s := by
  rw [read, readText]
  cases Source.layer v <;> simp [mismatch, @eq_comm _ n]

theorem read_bool_iff : bool.read v = .ok n ↔ ∃ b, Source.layer v = .bool b ∧ n = .bool b := by
  rw [read, readBool]
  cases Source.layer v <;> simp [mismatch, @eq_comm _ n]

/-- An integer is read if it is in the range. -/
theorem readInt_iff {bits : Nat} {expected : String} :
    readInt bits expected v = .ok n ↔
      ∃ k, Source.layer v = .int k ∧ (IntRange.signed bits).contains k = true ∧ n = .int k := by
  unfold readInt
  cases Source.layer v with
  | int k =>
    by_cases hrange : (IntRange.signed bits).contains k = true <;> simp [hrange, @eq_comm _ n]
  | _ => simp [mismatch]

theorem read_intOrText_iff :
    intOrText.read v = .ok n ↔
      (∃ k, Source.layer v = .int k ∧ (IntRange.signed 32).contains k = true ∧ n = .int k) ∨
      ∃ s, Source.layer v = .text s ∧ n = .text s := by
  rw [read, readIntOrText]
  cases Source.layer v with
  | int k =>
    by_cases hrange : (IntRange.signed 32).contains k = true <;> simp [hrange, @eq_comm _ n]
  | text s => simp [@eq_comm _ n]
  | _ => simp [mismatch]

/-- A time is read if its text can be parsed, and is written in its own form. -/
theorem read_time_iff :
    time.read v = .ok n ↔
      ∃ s t, Source.layer v = .text s ∧ Instant.parse s = .ok t ∧ n = .text t.text := by
  rw [read, readTime]
  cases Source.layer v with
  | text s => cases hparse : Instant.parse s <;> simp [hparse, @eq_comm _ n]
  | _ => simp [mismatch]

end Shape

namespace Json

variable {j : Json}

theorem layer_eq_text_iff {s : String} : Source.layer j = .text s ↔ j = text s := by
  cases j <;> simp [Source.layer, layer]

end Json

end WorkloadEnv
