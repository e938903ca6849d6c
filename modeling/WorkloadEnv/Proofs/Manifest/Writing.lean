import WorkloadEnv.Manifest.Writer
import Mathlib.Data.String.Basic

/-! # Writing a manifest

    A sink with room for everything receives the text of the manifest, document
    after document, and nothing is refused (`write_empty`). -/

namespace WorkloadEnv

theorem Sink.write_unlimited (bytes written : ByteArray) :
    (⟨written, none⟩ : Sink).write bytes = (⟨written ++ bytes, none⟩, true) := rfl

namespace Manifest

theorem writeDocument_unlimited (d : Document) (written : ByteArray) :
    writeDocument d ⟨written, none⟩ =
      (⟨written ++ (documentText d).toUTF8, none⟩, none) := rfl

/-- Further documents go behind what was written, each with its separator. -/
theorem writeMore_unlimited (ds : List Document) (d : Document) (s : String) :
    writeMore ds ⟨(s ++ documentText d).toUTF8, none⟩ =
      (⟨(s ++ separator.intercalate ((d :: ds).map documentText)).toUTF8, none⟩, none) := by
  induction ds generalizing d s with
  | nil => simp [writeMore]
  | cons d' ds ih =>
    have hstep : writeMore (d' :: ds) ⟨(s ++ documentText d).toUTF8, none⟩ =
        writeMore ds ⟨(s ++ documentText d ++ separator ++ documentText d').toUTF8, none⟩ := by
      simp only [writeMore, Sink.write_unlimited, writeDocument_unlimited,
        String.toUTF8_eq_toByteArray, String.toByteArray_append]
    rw [hstep, ih]
    simp [String.append_assoc, String.intercalate_cons_cons]

/-- **A sink that refuses nothing receives the text of the manifest.** -/
theorem write_empty (m : Manifest) :
    m.write (.empty none) = (⟨m.toYaml.toUTF8, none⟩, none) := by
  obtain ⟨resources⟩ := m
  cases resources with
  | nil => rfl
  | cons d ds =>
    have hfirst : writeDocument d (.empty none) =
        (⟨("" ++ documentText d).toUTF8, none⟩, none) := by
      simp [Sink.empty, writeDocument_unlimited]
    simp only [write, hfirst]
    rw [writeMore_unlimited, String.empty_append]
    rfl

end Manifest

end WorkloadEnv
