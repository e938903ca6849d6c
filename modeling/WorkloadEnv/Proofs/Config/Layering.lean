import WorkloadEnv.Config.Source
import WorkloadEnv.Proofs.Text.Bytes

/-! # Layered sources

    A layered source asks its single sources from left to right, however the
    choices between them are nested, and the first of them that says anything
    decides (`first_answer_decides`).  To say something is to give a value or to
    fail: a variable that is set but does not parse is an answer, so nothing
    behind it is asked, and its error is the error of the whole.

    What a single source says, of whatever type the value is, depends on the
    given value (`value_given_some`, `value_given_none`) or on the text that the
    variable holds (`value_fromEnv_eq_ok_iff`, `value_fromEnv_eq_error_iff`,
    `value_fromEnv_eq_none_iff`). -/

namespace WorkloadEnv

/-! ## Variables -/

namespace Environment

variable {name : String} {env : Environment}

/-- A variable holds a text exactly if its bytes are what the text is written as. -/
theorem text?_eq_some_iff {s : String} :
    env.text? name = some s ↔ Members.get? name env.bindings = some s.toUTF8 := by
  rw [text?, Option.bind_eq_some_iff]
  simp only [fromUTF8?_eq_some_iff]
  constructor
  · rintro ⟨bytes, hbytes, rfl⟩
    exact hbytes
  · intro hbytes
    exact ⟨_, hbytes, rfl⟩

/-- A variable holds no text if it is not set, or set to bytes that are none. -/
theorem text?_eq_none_iff :
    env.text? name = none ↔ Members.get? name env.bindings = none ∨
      ∃ bytes, Members.get? name env.bindings = some bytes ∧ ∀ s : String, bytes ≠ s.toUTF8 := by
  rw [text?]
  cases Members.get? name env.bindings with
  | none => simp
  | some bytes => simp [fromUTF8?_eq_none_iff]

end Environment

/-! ## Leaves -/

namespace ConfigSource

variable {α : Type} {parse : String → Option α} {env : Environment}
variable {s t l : ConfigSource α} {before after : List (ConfigSource α)}

/-- The single sources, in the order in which they are asked. -/
def leaves : ConfigSource α → List (ConfigSource α)
  | given v => [given v]
  | fromEnv name => [fromEnv name]
  | orElse first fallback => first.leaves ++ fallback.leaves

/-- A single source is a given value or a variable. -/
theorem given_or_fromEnv_of_mem_leaves (h : l ∈ s.leaves) :
    (∃ v, l = given v) ∨ ∃ name, l = fromEnv name := by
  induction s with
  | given v => exact .inl ⟨v, List.mem_singleton.mp h⟩
  | fromEnv name => exact .inr ⟨name, List.mem_singleton.mp h⟩
  | orElse first fallback ih ih' => exact (List.mem_append.mp h).elim ih ih'

/-! ## What a leaf says -/

@[simp] theorem value_given_some (a : α) :
    (given (some a)).value parse env = some (.ok a) := rfl

@[simp] theorem value_given_none : (given none : ConfigSource α).value parse env = none := rfl

/-- A variable says nothing exactly if it holds no text. -/
theorem value_fromEnv_eq_none_iff {name : String} :
    (fromEnv name : ConfigSource α).value parse env = none ↔ env.text? name = none := by
  rw [value, Option.map_eq_none_iff]

/-- It gives a value exactly if it holds a text that stands for the value. -/
theorem value_fromEnv_eq_ok_iff {name : String} {a : α} :
    (fromEnv name).value parse env = some (.ok a) ↔
      ∃ text, env.text? name = some text ∧ parse text = some a := by
  rw [value, Option.map_eq_some_iff]
  refine exists_congr fun text => and_congr_right fun _ => ?_
  cases parse text <;> simp

/-- It fails exactly if it holds a text that stands for none, and reports that text. -/
theorem value_fromEnv_eq_error_iff {name : String} {e : ConfigError} :
    (fromEnv name : ConfigSource α).value parse env = some (.error e) ↔
      ∃ text, env.text? name = some text ∧ parse text = none ∧ e = .invalidValue text name := by
  rw [value, Option.map_eq_some_iff]
  refine exists_congr fun text => and_congr_right fun _ => ?_
  cases parse text with
  | none => simp [eq_comm]
  | some a => simp

theorem value_fromEnv_of_unparsable {name text : String} (htext : env.text? name = some text)
    (hparse : parse text = none) :
    (fromEnv name : ConfigSource α).value parse env = some (.error (.invalidValue text name)) :=
  value_fromEnv_eq_error_iff.mpr ⟨text, htext, hparse, rfl⟩

/-! ## Choices -/

theorem value_orElse (first fallback : ConfigSource α) :
    (orElse first fallback).value parse env =
      (first.value parse env).or (fallback.value parse env) := by
  rw [value]
  cases first.value parse env <;> rfl

/-- **The first answer counts.**  A choice asks the leaves of its first source before
    those of its fallback, so the nesting is not seen in the outcome. -/
theorem value_eq_findSome? (parse : String → Option α) (env : Environment)
    (s : ConfigSource α) : s.value parse env = s.leaves.findSome? (value parse env) := by
  induction s with
  | given v => rw [leaves, List.findSome?_singleton]
  | fromEnv name => rw [leaves, List.findSome?_singleton]
  | orElse first fallback ih ih' => rw [value_orElse, ih, ih', leaves, List.findSome?_append]

theorem value_eq_none_iff :
    s.value parse env = none ↔ ∀ l ∈ s.leaves, l.value parse env = none := by
  rw [value_eq_findSome?, List.findSome?_eq_none_iff]

/-- An answer is that of a leaf before which no leaf has one. -/
theorem value_eq_some_iff {r : Except ConfigError α} :
    s.value parse env = some r ↔ ∃ before l after, s.leaves = before ++ l :: after ∧
      (∀ q ∈ before, q.value parse env = none) ∧ l.value parse env = some r := by
  rw [value_eq_findSome?, List.findSome?_eq_some_iff]
  simp only [and_comm]

theorem value_congr_leaves (h : t.leaves = s.leaves) :
    t.value parse env = s.value parse env := by
  rw [value_eq_findSome?, value_eq_findSome?, h]

/-- A leaf that says nothing may be left out, wherever it stands. -/
theorem value_of_silent_leaf (hs : s.leaves = before ++ l :: after)
    (hl : l.value parse env = none) (ht : t.leaves = before ++ after) :
    t.value parse env = s.value parse env := by
  have hskip : (l :: after).findSome? (value parse env) = after.findSome? (value parse env) := by
    rw [List.findSome?_cons, hl]
  rw [value_eq_findSome?, value_eq_findSome?, hs, ht, List.findSome?_append,
    List.findSome?_append, hskip]

/-- Behind a leaf that says something anything may stand. -/
theorem value_of_deciding_leaf {after' : List (ConfigSource α)}
    (hs : s.leaves = before ++ l :: after) (hl : l.value parse env ≠ none)
    (ht : t.leaves = before ++ l :: after') : t.value parse env = s.value parse env := by
  obtain ⟨r, hr⟩ := Option.ne_none_iff_exists'.mp hl
  have hstop : ∀ rest, (l :: rest).findSome? (value parse env) = some r := by
    intro rest
    rw [List.findSome?_cons, hr]
  rw [value_eq_findSome?, value_eq_findSome?, hs, ht, List.findSome?_append,
    List.findSome?_append, hstop, hstop]

/-- **The leftmost leaf that says anything decides**: no leaf says anything, or the
    answer is that of the first one that does.  So nesting does not matter, a leaf
    that says nothing can be left out anywhere, what stands behind the deciding
    leaf is never looked at, and a variable that does not parse is reported as it
    is, whatever follows. -/
theorem first_answer_decides (parse : String → Option α) (env : Environment)
    (s : ConfigSource α) :
    (∀ l ∈ s.leaves, (∃ v, l = given v) ∨ ∃ name, l = fromEnv name) ∧
    (s.value parse env = none ↔ ∀ l ∈ s.leaves, l.value parse env = none) ∧
    (∀ r, s.value parse env = some r ↔ ∃ before l after, s.leaves = before ++ l :: after ∧
      (∀ q ∈ before, q.value parse env = none) ∧ l.value parse env = some r) ∧
    (∀ t : ConfigSource α, t.leaves = s.leaves → t.value parse env = s.value parse env) ∧
    (∀ (t : ConfigSource α) before l after, s.leaves = before ++ l :: after →
      l.value parse env = none → t.leaves = before ++ after →
      t.value parse env = s.value parse env) ∧
    (∀ (t : ConfigSource α) before l after after', s.leaves = before ++ l :: after →
      l.value parse env ≠ none → t.leaves = before ++ l :: after' →
      t.value parse env = s.value parse env) ∧
    (∀ before name text after, s.leaves = before ++ fromEnv name :: after →
      (∀ q ∈ before, q.value parse env = none) → env.text? name = some text →
      parse text = none → s.value parse env = some (.error (.invalidValue text name))) := by
  refine ⟨fun l => given_or_fromEnv_of_mem_leaves, value_eq_none_iff, fun r => value_eq_some_iff,
    fun t => value_congr_leaves, fun t before l after => value_of_silent_leaf,
    fun t before l after after' => value_of_deciding_leaf, ?_⟩
  intro before name text after hs hbefore htext hparse
  exact value_eq_some_iff.mpr
    ⟨before, _, after, hs, hbefore, value_fromEnv_of_unparsable htext hparse⟩

namespace Sample

/-- An environment in which a number is misspelt. -/
def misspelt : Environment := Environment.empty.assign "PORT" (some "thirteen")

/-- Numbers, as far as they are needed here. -/
def number (s : String) : Option Nat := if s = "13" then some 13 else none

/-- Nothing given, then a variable, then a value that would do. -/
def port : ConfigSource Nat := orElse (orElse (given none) (fromEnv "PORT")) (given (some 80))

end Sample

/-- The misspelt number is reported: the good value behind it does not count, and the
    source in front of it that has nothing to say is not missed. -/
theorem first_answer_decides_misspelt :
    Sample.port.value Sample.number Sample.misspelt =
      some (.error (.invalidValue "thirteen" "PORT")) ∧
    (orElse (fromEnv "PORT") (given (some 80))).value Sample.number Sample.misspelt =
      Sample.port.value Sample.number Sample.misspelt ∧
    (orElse (given none) (fromEnv "PORT")).value Sample.number Sample.misspelt =
      Sample.port.value Sample.number Sample.misspelt := by
  obtain ⟨-, -, -, -, hsilent, hbehind, hunparsable⟩ :=
    first_answer_decides Sample.number Sample.misspelt Sample.port
  have htext : Sample.misspelt.text? "PORT" = some "thirteen" :=
    Environment.text?_eq_some_iff.mpr rfl
  have hanswer : (fromEnv "PORT").value Sample.number Sample.misspelt ≠ none := by
    rw [value_fromEnv_of_unparsable htext rfl]
    exact Option.some_ne_none _
  refine ⟨hunparsable [given none] "PORT" "thirteen" [given (some 80)] rfl ?_ htext rfl,
    hsilent _ [] (given none) [fromEnv "PORT", given (some 80)] rfl rfl rfl,
    hbehind _ [given none] (fromEnv "PORT") [given (some 80)] [] rfl hanswer rfl⟩
  intro q hq
  rw [List.mem_singleton.mp hq]
  rfl

end ConfigSource

end WorkloadEnv
