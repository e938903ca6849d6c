import WorkloadEnv.Config.MinVersion
import WorkloadEnv.Proofs.Config.Layering

/-! # Which version is configured

    Resolving never fails, and a version that is given decides alone.  Without
    one the variable decides: it sets the version it holds as a text, and it
    sets none where it is empty or not set (`version_configured_iff`).  The text
    that decides is `Configured`, and its transform is the one that is resolved
    (`transform_of_configured`).

    There is a third way to have no version.  A variable whose bytes are no text
    counts as one that is not set, so what was configured is passed over, and
    nothing is reported (`configured_version_ignored`). -/

namespace WorkloadEnv.MinVersionConfig

variable {explicit : Option String} {env : Environment} {v : String}

/-- The bytes of the variable that holds the version, if it is set. -/
def variableBytes? (env : Environment) : Option ByteArray :=
  Members.get? minVersionVariable env.bindings

/-- Resolving succeeds with the version, and the transform sets exactly it. -/
def Sets (explicit : Option String) (env : Environment) (v : String) : Prop :=
  ∃ c, resolve explicit env = .ok c ∧ c.version = some v ∧
    c.transform = .enabled [EnvVar.plain minVersionVariable v]

/-- Resolving succeeds without a version, and the transform does nothing. -/
def SetsNone (explicit : Option String) (env : Environment) : Prop :=
  ∃ c, resolve explicit env = .ok c ∧ c.version = none ∧ c.transform = .disabled

/-! ## Resolving -/

/-- **What is resolved** is the given text, else that of the variable, unless it is empty. -/
theorem resolve_eq (explicit : Option String) (env : Environment) :
    resolve explicit env =
      .ok ⟨(explicit.or (env.text? minVersionVariable)).filter fun s => s ≠ ""⟩ := by
  cases explicit with
  | some s => rfl
  | none =>
    rw [resolve, source, ConfigSource.resolve, ConfigSource.value_orElse]
    cases henv : env.text? minVersionVariable with
    | none => simp [ConfigSource.value, henv, bind, Except.bind]
    | some s => simp [ConfigSource.value, henv, bind, Except.bind]

theorem transform_of_ne_empty (hv : v ≠ "") :
    transform ⟨some v⟩ = .enabled [EnvVar.plain minVersionVariable v] := by
  show MinVersionTransform.ofVersion v = _
  rw [MinVersionTransform.ofVersion, if_neg hv]

/-- A version is set if it is the text that is resolved and not empty. -/
theorem sets_iff :
    Sets explicit env v ↔ v ≠ "" ∧ explicit.or (env.text? minVersionVariable) = some v := by
  rw [Sets, resolve_eq]
  constructor
  · rintro ⟨c, hc, hversion, -⟩
    cases hc
    obtain ⟨hsome, hv⟩ := Option.filter_eq_some_iff.mp hversion
    exact ⟨by simpa using hv, hsome⟩
  · rintro ⟨hv, hsome⟩
    have hkept : (explicit.or (env.text? minVersionVariable)).filter (fun s => s ≠ "") = some v := by
      rw [hsome, Option.filter_some, if_pos (by simpa using hv)]
    exact ⟨_, rfl, hkept, by rw [hkept, transform_of_ne_empty hv]⟩

/-- No version is set if the text that is resolved is empty, or there is none. -/
theorem setsNone_iff :
    SetsNone explicit env ↔ explicit.or (env.text? minVersionVariable) = some "" ∨
      explicit.or (env.text? minVersionVariable) = none := by
  rw [SetsNone, resolve_eq]
  cases htext : explicit.or (env.text? minVersionVariable) with
  | none => exact ⟨fun _ => .inr rfl, fun _ => ⟨_, rfl, rfl, rfl⟩⟩
  | some s =>
    by_cases hs : s = ""
    · subst hs
      exact ⟨fun _ => .inl rfl, fun _ => ⟨_, rfl, rfl, rfl⟩⟩
    · simp [hs]

/-! ## The variable -/

theorem text?_eq_some_empty_iff :
    env.text? minVersionVariable = some "" ↔ variableBytes? env = some ByteArray.empty :=
  Environment.text?_eq_some_iff

/-- The text that decides on the version: the given one, or else what the variable
    holds as a text.  It is empty where there is neither. -/
def Configured (explicit : Option String) (env : Environment) (v : String) : Prop :=
  explicit = some v ∨ explicit = none ∧
    (variableBytes? env = some v.toUTF8 ∨
      v = "" ∧ ∀ s : String, variableBytes? env ≠ some s.toUTF8)

theorem configured_iff :
    Configured explicit env v ↔ v = (explicit.or (env.text? minVersionVariable)).getD "" := by
  have htext : ∀ s : String, variableBytes? env = some s.toUTF8 ↔
      env.text? minVersionVariable = some s := fun _ => Environment.text?_eq_some_iff.symm
  unfold Configured
  simp only [ne_eq, htext]
  cases explicit with
  | some s => simp [eq_comm]
  | none =>
    cases env.text? minVersionVariable with
    | some s => simp [eq_comm]
    | none => simp

/-- **Resolving gives the transform of the text that decides**, an empty one setting
    nothing. -/
theorem transform_of_configured (h : Configured explicit env v) :
    ∃ c, resolve explicit env = .ok c ∧ c.transform = .ofVersion v := by
  refine ⟨_, resolve_eq explicit env, ?_⟩
  rw [configured_iff.mp h]
  cases explicit.or (env.text? minVersionVariable) with
  | none => rfl
  | some s =>
    by_cases hs : s = ""
    · subst hs
      rfl
    · rw [Option.filter_some, if_pos (by simpa using hs)]
      rfl

/-- **Who decides on the version, and how.**  Resolving always succeeds, and a given
    text makes the variable irrelevant.  A version is set exactly if it is not empty
    and given, or held by the variable as a text when none is given.  None is set
    exactly if the given text is empty, or if none is given and the variable is not
    set, or empty, or holds bytes that are no text. -/
theorem version_configured_iff (explicit : Option String) (env : Environment) :
    (∃ c, resolve explicit env = .ok c) ∧
    (∀ s env', resolve (some s) env' = resolve (some s) env) ∧
    (∀ v, Sets explicit env v ↔ v ≠ "" ∧
      (explicit = some v ∨ explicit = none ∧ variableBytes? env = some v.toUTF8)) ∧
    (SetsNone explicit env ↔ explicit = some "" ∨ explicit = none ∧
      (variableBytes? env = none ∨ variableBytes? env = some ByteArray.empty ∨
        ∃ bytes, variableBytes? env = some bytes ∧ ∀ s : String, bytes ≠ s.toUTF8)) := by
  refine ⟨⟨_, resolve_eq explicit env⟩, fun s env' => rfl, fun v => ?_, ?_⟩
  · rw [sets_iff]
    refine and_congr_right fun _ => ?_
    cases explicit with
    | some s => simp
    | none => simp [Environment.text?_eq_some_iff, variableBytes?]
  · rw [setsNone_iff]
    cases explicit with
    | some s => simp
    | none =>
      have hnone : env.text? minVersionVariable = none ↔ variableBytes? env = none ∨
          ∃ bytes, variableBytes? env = some bytes ∧ ∀ s : String, bytes ≠ s.toUTF8 :=
        Environment.text?_eq_none_iff
      rw [Option.none_or, text?_eq_some_empty_iff, hnone]
      simp [or_left_comm]

/-- **A version that is configured and not set**: the variable holds bytes, and
    resolving succeeds as if it were not there. -/
theorem configured_version_ignored :
    ∃ env bytes, variableBytes? env = some bytes ∧ bytes ≠ ByteArray.empty ∧
      resolve none env = .ok ⟨none⟩ ∧ transform ⟨none⟩ = .disabled :=
  -- the version v1.25.0 and a byte that no text has
  ⟨Environment.empty.setBytes minVersionVariable
    ⟨#[0x76, 0x31, 0x2e, 0x32, 0x35, 0x2e, 0x30, 0xff]⟩, _, rfl, by decide, rfl, rfl⟩

end WorkloadEnv.MinVersionConfig
