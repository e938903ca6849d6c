import WorkloadEnv.Manifest.Writer
import WorkloadEnv.Proofs.Manifest.Loading
import WorkloadEnv.Proofs.Text.Bytes

/-! # Which error a manifest fails with

    There are two variants of error, and their messages tell of parsing and of
    writing.  What they stand for is something else: the YAML part and the
    stream below it (`error_variant_iff`).  Reading fails with an error of the
    stream where the bytes cannot be read or are no text.  Writing fails with
    one where the first byte that is refused belongs to a separator, and with
    one of the YAML part where it belongs to a document.

    So the variant does not tell in which direction the data went: a bad input
    can be reported as a failure to write, and a full disk as one to parse
    (`direction_misnamed`).

    For writing, a manifest is cut into the pieces in which it is handed to the
    sink (`pieces`).  One induction over them says which piece is refused.

    The manifests are those of `Document`: the data of each resource is an
    object, as that of every resource that was loaded.  Of resources that were
    put together with other data, which cannot be written at all, nothing is
    said here. -/

namespace WorkloadEnv.Manifest

variable {s : String} {source : ByteSource} {reason : String} {cause : YamlError}
  {e : ManifestError} {written : ByteArray} {room : Nat}

/-! ## Reading -/

/-- A text fails with an error of the YAML part only. -/
theorem yaml_of_ofYaml (h : ofYaml s = .error e) : ∃ cause, e = .yaml cause := by
  have herror : ofOutcomes (Yaml.read s) = .error e := by
    rw [ofYaml] at h
    cases houtcomes : ofOutcomes (Yaml.read s) with
    | ok ds =>
      rw [houtcomes] at h
      cases h
    | error e' =>
      rw [houtcomes] at h
      cases h
      rfl
  obtain ⟨_, _, _, -, -, hfails⟩ := ofOutcomes_eq_error_iff.mp herror
  cases hfails with
  | unread failure => exact ⟨_, rfl⟩
  | undecoded _ _ => exact ⟨_, rfl⟩

/-- Reading the text fails with an error of the stream only: it broke off, or its
    bytes are no text. -/
theorem readText_eq_error_iff :
    source.readText = .error e ↔ (∃ reason, source.failure = some reason ∧ e = .stream reason) ∨
      source.failure = none ∧ (∀ s : String, source.bytes ≠ s.toUTF8) ∧
        e = .stream "stream did not contain valid UTF-8" := by
  obtain ⟨bytes, failure⟩ := source
  rw [← fromUTF8?_eq_none_iff]
  cases failure with
  | some reason => simp [ByteSource.readText, eq_comm]
  | none =>
    cases htext : String.fromUTF8? bytes with
    | some s => simp [ByteSource.readText, htext]
    | none => simp [ByteSource.readText, htext, eq_comm]

theorem readText_eq_ok_iff :
    source.readText = .ok s ↔ source.failure = none ∧ source.bytes = s.toUTF8 := by
  obtain ⟨bytes, failure⟩ := source
  rw [← fromUTF8?_eq_some_iff]
  cases failure with
  | some reason => simp [ByteSource.readText]
  | none =>
    cases htext : String.fromUTF8? bytes with
    | some s => simp [ByteSource.readText, htext]
    | none => simp [ByteSource.readText, htext]

/-- Loading fails with an error of the stream where there is no text to load. -/
theorem ofSource_eq_stream_iff :
    ofSource source = .error (.stream reason) ↔ source.failure = some reason ∨
      source.failure = none ∧ (∀ s : String, source.bytes ≠ s.toUTF8) ∧
        reason = "stream did not contain valid UTF-8" := by
  rw [ofSource, bind_eq_error_iff, readText_eq_error_iff]
  simp only [ManifestError.stream.injEq, exists_eq_right']
  constructor
  · rintro (h | ⟨s, -, hyaml⟩)
    · exact h
    · obtain ⟨cause, hcause⟩ := yaml_of_ofYaml hyaml
      cases hcause
  · exact .inl

/-- Loading fails with an error of the YAML part where its text does. -/
theorem ofSource_eq_yaml_iff :
    ofSource source = .error (.yaml cause) ↔ source.failure = none ∧
      ∃ s : String, source.bytes = s.toUTF8 ∧ ofYaml s = .error (.yaml cause) := by
  rw [ofSource, bind_eq_error_iff, readText_eq_error_iff]
  simp only [readText_eq_ok_iff, reduceCtorEq, and_false, exists_false, false_or, and_assoc,
    exists_and_left]

/-! ## Writing -/

/-- What is handed to the sink at once. -/
inductive Piece where
  | document (d : Document)
  | separator

namespace Piece

def text : Piece → String
  | document d => documentText d
  | separator => Manifest.separator

/-- The error for a piece that is refused: the YAML part writes the documents, and
    the separators go to the stream directly. -/
def refusal : Piece → ManifestError
  | document _ => .yaml (.refused fullReason)
  | separator => .stream fullReason

end Piece

/-- The documents, with a separator between any two. -/
def pieces (ds : List Document) : List Piece := (ds.map Piece.document).intersperse .separator

/-- Hands the pieces over one by one, up to the first that is refused. -/
def writePieces : List Piece → Sink → Sink × Option ManifestError
  | [], s => (s, none)
  | p :: ps, s =>
    match s.write p.text.toUTF8 with
    | (s, true) => writePieces ps s
    | (s, false) => (s, some p.refusal)

/-- The number of bytes of some pieces. -/
def size : List Piece → Nat
  | [] => 0
  | p :: ps => p.text.utf8ByteSize + size ps

/-- Behind the first document each other one comes after its separator. -/
theorem pieces_cons (d : Document) (ds : List Document) :
    pieces (d :: ds) = .document d :: ds.flatMap fun d => [.separator, .document d] := by
  induction ds generalizing d with
  | nil => rfl
  | cons d' ds ih =>
    have hrest := ih d'
    show .document d :: .separator :: pieces (d' :: ds) = _
    rw [hrest]
    rfl

theorem writePieces_document (d : Document) (ps : List Piece) (s : Sink) :
    writePieces (.document d :: ps) s =
      match writeDocument d s with
      | (s, none) => writePieces ps s
      | (s, some e) => (s, some e) := by
  rw [writePieces, writeDocument, Piece.text]
  rcases s.write (documentText d).toUTF8 with ⟨s', - | -⟩ <;> rfl

theorem writeMore_eq_writePieces (ds : List Document) (s : Sink) :
    writeMore ds s = writePieces (ds.flatMap fun d => [.separator, .document d]) s := by
  induction ds generalizing s with
  | nil => rfl
  | cons d ds ih =>
    show _ = writePieces (.separator :: .document d ::
      ds.flatMap fun d => [.separator, .document d]) s
    rw [writeMore, writePieces, Piece.text]
    rcases s.write separator.toUTF8 with ⟨s', - | -⟩
    · rfl
    · dsimp only
      rw [writePieces_document]
      simp only [ih]
      rcases writeDocument d s' with ⟨s'', - | e⟩ <;> rfl

/-- **Writing is handing over the pieces.** -/
theorem write_eq_writePieces (m : Manifest) (s : Sink) :
    m.write s = writePieces (pieces m.resources) s := by
  obtain ⟨resources⟩ := m
  cases resources with
  | nil => rfl
  | cons d ds =>
    rw [pieces_cons, writePieces_document, write]
    simp only [← writeMore_eq_writePieces]
    rcases writeDocument d s with ⟨s', - | e⟩ <;> rfl

/-- The pieces are the text of the manifest, cut up. -/
theorem join_text_pieces (m : Manifest) :
    String.join ((pieces m.resources).map Piece.text) = m.toYaml := by
  obtain ⟨resources⟩ := m
  rw [toYaml]
  induction resources with
  | nil => rfl
  | cons d ds ih =>
    cases ds with
    | nil => simp [pieces, Piece.text]
    | cons d' ds =>
      have hsplit : pieces (d :: d' :: ds) = .document d :: .separator :: pieces (d' :: ds) := rfl
      rw [hsplit]
      simp only [List.map_cons, String.join_cons, String.intercalate_cons_cons] at ih ⊢
      rw [ih]
      simp [Piece.text, String.append_assoc]

/-- **The piece that is refused is the one the room ends in**, and it decides the error. -/
theorem writePieces_eq_some_iff {ps : List Piece} :
    (writePieces ps ⟨written, some room⟩).2 = some e ↔
      ∃ before p after, ps = before ++ p :: after ∧ size before ≤ room ∧
        room < size before + p.text.utf8ByteSize ∧ e = p.refusal := by
  -- the sink keeps count of the room, so the induction is for any room
  induction ps generalizing written room with
  | nil => simp [writePieces]
  | cons p ps ih =>
    have hbytes : p.text.toUTF8.size = p.text.utf8ByteSize := String.size_toByteArray
    have hwrite : (⟨written, some room⟩ : Sink).write p.text.toUTF8 =
        (⟨written ++ p.text.toUTF8.extract 0 (min room p.text.toUTF8.size),
          some (room - p.text.utf8ByteSize)⟩, decide (p.text.utf8ByteSize ≤ room)) := by
      rw [← hbytes]
      rfl
    rw [writePieces, hwrite]
    by_cases hfits : p.text.utf8ByteSize ≤ room
    · rw [decide_eq_true hfits]
      dsimp only
      rw [ih]
      constructor
      · rintro ⟨before, q, after, rfl, hbefore, hends, he⟩
        refine ⟨p :: before, q, after, rfl, ?_, ?_, he⟩
        · rw [size]
          omega
        · rw [size]
          omega
      · rintro ⟨before, q, after, hsplit, hbefore, hends, he⟩
        cases before with
        | nil =>
          obtain ⟨rfl, rfl⟩ := List.cons.inj hsplit
          simp only [size] at hends
          omega
        | cons p' before =>
          obtain ⟨rfl, rfl⟩ := List.cons.inj hsplit
          rw [size] at hbefore hends
          exact ⟨before, q, after, rfl, by omega, by omega, he⟩
    · rw [decide_eq_false hfits]
      dsimp only
      constructor
      · intro he
        exact ⟨[], p, ps, rfl, Nat.zero_le _, by simp [size]; omega, (Option.some.inj he).symm⟩
      · rintro ⟨before, q, after, hsplit, hbefore, -, rfl⟩
        cases before with
        | nil =>
          obtain ⟨rfl, rfl⟩ := List.cons.inj hsplit
          rfl
        | cons p' before =>
          obtain ⟨rfl, rfl⟩ := List.cons.inj hsplit
          rw [size] at hbefore
          omega

theorem writePieces_unlimited (ps : List Piece) (written : ByteArray) :
    (writePieces ps ⟨written, none⟩).2 = none := by
  induction ps generalizing written with
  | nil => rfl
  | cons p ps ih => exact ih _

/-! ## Both directions -/

/-- **The variant of an error tells the part that failed.**  Loading fails with an
    error of the stream exactly if the bytes cannot be read, or are no text; any
    other failure to load is one of the YAML part.  Writing fails exactly if the
    room ends within the text: with an error of the YAML part where it ends in a
    document, and of the stream where it ends in a separator. -/
theorem error_variant_iff (source : ByteSource) (m : Manifest) (written : ByteArray) :
    (∀ reason, ofSource source = .error (.stream reason) ↔ source.failure = some reason ∨
      source.failure = none ∧ (∀ s : String, source.bytes ≠ s.toUTF8) ∧
        reason = "stream did not contain valid UTF-8") ∧
    (∀ cause, ofSource source = .error (.yaml cause) ↔ source.failure = none ∧
      ∃ s : String, source.bytes = s.toUTF8 ∧ ofYaml s = .error (.yaml cause)) ∧
    String.join ((pieces m.resources).map Piece.text) = m.toYaml ∧
    (m.write ⟨written, none⟩).2 = none ∧
    (∀ room e, (m.write ⟨written, some room⟩).2 = some e ↔ ∃ before p after,
      pieces m.resources = before ++ p :: after ∧ size before ≤ room ∧
        room < size before + p.text.utf8ByteSize ∧ e = p.refusal) := by
  refine ⟨fun reason => ofSource_eq_stream_iff, fun cause => ofSource_eq_yaml_iff,
    join_text_pieces m, ?_, fun room e => ?_⟩
  · rw [write_eq_writePieces, writePieces_unlimited]
  · rw [write_eq_writePieces, writePieces_eq_some_iff]

/-- **The messages name the wrong direction.**  A text that cannot be read is reported
    as a failure to write, and a sink that is full as a failure to parse. -/
theorem direction_misnamed :
    (∃ source e, ofSource source = .error e ∧
      e.message? = some "failed to write manifest: stream did not contain valid UTF-8") ∧
    (∃ m e, (write m (.empty (some 0))).2 = some e ∧
      e.message? = some "failed to parse manifest: writer is full") := by
  refine ⟨⟨.ofBytes ⟨#[0x61, 0x3a, 0x20, 0xff, 0x0a]⟩, _, rfl, rfl⟩,
    ⟨⟨[{ types := none, metadata := [], data := [("a", .int 1)] }]⟩, _, rfl, rfl⟩⟩

end WorkloadEnv.Manifest
