import WorkloadEnv.Proofs.Command.Run
import WorkloadEnv.Proofs.Config.MinVersion
import WorkloadEnv.Proofs.Manifest.ErrorVariants
import WorkloadEnv.Proofs.Manifest.Pipeline

/-! # All or nothing

    The transform command as a function on the world it finds.  It succeeds
    exactly if its input is the text of a manifest, every resource of which can
    be transformed, and its output may be opened for writing.  Then the output
    holds the transformed manifest and all else is as it was; else everything is
    (`runTransform_all_or_nothing`).

    What is read, what is set and what may be written is said of the world alone:
    by where its paths lead and what they lead to, what the system refuses, and
    which version the flag and the variable tell.  The input may be reached by
    one path and the output by another that leads to the same file. -/

namespace WorkloadEnv.Command

variable {w : World} {a : TransformArguments} {m m' : Manifest} {path l s v : String}
  {bytes : ByteArray} {output : Option String}

/-! ## What is read -/

/-- The input is a text: standard input, or the file that a path leads to, if it may be
    opened and read. -/
def InputText (w : World) (s : String) : Option String → Prop
  | none => w.stdin = .ok s.toUTF8
  | some path => ∃ l, w.tree.find false path = .ok (.file l) ∧
      w.tree.refusal .opening l = none ∧ w.tree.refusal .reading l = none ∧
      w.tree.content? l = some s.toUTF8

/-- A source is a text exactly if that was read, to its end. -/
theorem readText_sourceOf_iff {read : Except FileError ByteArray} :
    (sourceOf read).readText = .ok s ↔ read = .ok s.toUTF8 := by
  rw [Manifest.readText_eq_ok_iff]
  cases read with
  | error e => simp [sourceOf]
  | ok bytes => simp [sourceOf, ByteSource.ofBytes]

/-- **What the command reads as a text is the text of its input.** -/
theorem input_readText_iff {file : Option String} :
    (∃ source, w.input file = .ok source ∧ source.readText = .ok s) ↔ InputText w s file := by
  cases file with
  | none =>
    rw [InputText, ← readText_sourceOf_iff, World.input]
    simp
  | some path =>
    rw [InputText, ← FileTree.openFile_eq_ok_iff, World.input]
    simp only [mapError_eq_ok_iff, map_eq_ok_iff]
    constructor
    · rintro ⟨source, ⟨read, hread, rfl⟩, htext⟩
      rw [hread, readText_sourceOf_iff.mp htext]
    · intro hopen
      exact ⟨_, ⟨_, hopen, rfl⟩, readText_sourceOf_iff.mpr rfl⟩

/-! ## What is to be written -/

/-- The manifest is that of the input as the configured version leaves it, no resource
    having failed. -/
def Transformed (w : World) (a : TransformArguments) (m' : Manifest) : Prop :=
  ∃ v s m, MinVersionConfig.Configured a.minVersion w.environment v ∧ InputText w s a.file ∧
    Manifest.ofYaml s = .ok m ∧
    List.Forall₂ (fun d d' => (MinVersionTransform.ofVersion v).transformer d = (d', none))
      m.resources m'.resources

theorem transformAll_eq_ok_iff {config : MinVersionConfig} :
    transformAll config m = .ok m' ↔ m.transform config.transform.transformer = (m', []) := by
  unfold transformAll
  rcases m.transform config.transform.transformer with ⟨m'', - | ⟨failure, failures⟩⟩ <;> simp

/-- **What the command is to write** is the input with every resource transformed. -/
theorem result_eq_ok_iff : w.result a = .ok m' ↔ Transformed w a m' := by
  unfold World.result resultOf configOf
  simp only [bind_eq_ok_iff, mapError_eq_ok_iff, transformAll_eq_ok_iff,
    Manifest.transform_eq_nil_iff]
  constructor
  · rintro ⟨config, hconfig, source, hsource, m, hm, hall⟩
    obtain ⟨s, htext, hyaml⟩ := bind_eq_ok_iff.mp hm
    -- the configuration is that of the version, as there is only one
    have hv := MinVersionConfig.configured_iff.mpr
      (rfl : _ = (a.minVersion.or (w.environment.text? minVersionVariable)).getD "")
    obtain ⟨c, hresolve, htransform⟩ := MinVersionConfig.transform_of_configured hv
    obtain rfl : config = c := Except.ok.inj (hconfig.symm.trans hresolve)
    rw [htransform] at hall
    exact ⟨_, s, m, hv, input_readText_iff.mp ⟨source, hsource, htext⟩, hyaml, hall⟩
  · rintro ⟨v, s, m, hv, hs, hyaml, hall⟩
    obtain ⟨config, hresolve, htransform⟩ := MinVersionConfig.transform_of_configured hv
    obtain ⟨source, hsource, htext⟩ := input_readText_iff.mpr hs
    have hm : Manifest.ofSource source = .ok m := bind_eq_ok_iff.mpr ⟨s, htext, hyaml⟩
    rw [← htransform] at hall
    exact ⟨config, hresolve, source, hsource, m, hm, hall⟩

/-! ## What a run does -/

/-- A path may be opened for writing: it leads to a file that may be written, or to a
    place where one may be created.  Standard output is always open. -/
def Creatable (t : FileTree) (output : Option String) : Prop :=
  ∀ path, output = some path →
    ∃ l, t.find false path = .ok (.file l) ∧ t.refusal .writing l = none ∨
      t.find false path = .ok (.free l) ∧ t.refusal .creation l = none

/-- One tree is the other with the content of a single file set, that a path leads to. -/
structure Wrote (path : String) (bytes : ByteArray) (before after : FileTree) (l : String) :
    Prop where
  /-- The file was there, or there was nothing in its place. -/
  place : before.find false path = .ok (.file l) ∨ before.find false path = .ok (.free l)
  found : after.find false path = .ok (.file l)
  content : after.content? l = some bytes
  /-- No other file is there, or gone, or changed, and no directory or link is. -/
  others : ∀ other, other ≠ l →
    Members.get? other after.entries = Members.get? other before.entries
  workingDirectory : after.workingDirectory = before.workingDirectory
  refusal : after.refusal = before.refusal

/-- The bytes are what was brought to a destination, and all that was done. -/
def Delivered (bytes : ByteArray) (w w' : World) : Option String → Prop
  | none => w' = { w with stdout := w.stdout ++ bytes }
  | some path => w' = { w with tree := w'.tree } ∧ ∃ l, Wrote path bytes w.tree w'.tree l

theorem wrote_putFile {t : FileTree} (h : t.createFile path = .ok l) (bytes : ByteArray) :
    Wrote path bytes t (t.putFile l bytes) l where
  place := (FileTree.createFile_eq_ok_iff.mp h).imp And.left And.left
  found := FileTree.find_putFile_of_createFile h
  content := FileTree.content?_putFile_self
  others := fun _ hother => FileTree.get?_putFile_ne hother
  workingDirectory := rfl
  refusal := rfl

theorem createFile_of_creatable {t : FileTree} (h : Creatable t (some path)) :
    ∃ l, t.createFile path = .ok l := by
  obtain ⟨l, hl⟩ := h path rfl
  exact ⟨l, FileTree.createFile_eq_ok_iff.mpr hl⟩

theorem creatable_of_createFile {t : FileTree} (h : t.createFile path = .ok l) :
    Creatable t (some path) := by
  rintro _ ⟨rfl⟩
  exact ⟨l, FileTree.createFile_eq_ok_iff.mp h⟩

theorem creatable_none (t : FileTree) : Creatable t none := by
  intro path hpath
  cases hpath

/-- With a result and a destination, the result is delivered. -/
theorem delivered_of_result (h : w.result a = .ok m) (hc : Creatable w.tree a.output) :
    (runTransform w a).1 = .ok () ∧ Delivered m.toYaml.toUTF8 w (runTransform w a).2 a.output := by
  rw [runTransform_of_ok h]
  cases ho : a.output with
  | none =>
    rw [World.run_writeOutput_stdout]
    exact ⟨rfl, rfl⟩
  | some path =>
    rw [ho] at hc
    obtain ⟨l, hl⟩ := createFile_of_creatable hc
    rw [World.run_writeOutput_file m hl]
    exact ⟨rfl, rfl, l, wrote_putFile hl _⟩

/-- **A run fails without a trace**, or it has a result and a destination. -/
theorem runTransform_cases (w : World) (a : TransformArguments) :
    ((runTransform w a).1 ≠ .ok () ∧ (runTransform w a).2 = w) ∨
      (∃ m, w.result a = .ok m) ∧ Creatable w.tree a.output := by
  cases hresult : w.result a with
  | error cause =>
    rw [runTransform_of_error hresult]
    exact .inl ⟨nofun, rfl⟩
  | ok m =>
    cases ho : a.output with
    | none => exact .inr ⟨⟨m, rfl⟩, creatable_none _⟩
    | some path =>
      cases hc : w.tree.createFile path with
      | error e =>
        rw [runTransform_of_ok hresult, ho, World.run_writeOutput_not_created m hc]
        exact .inl ⟨nofun, rfl⟩
      | ok l => exact .inr ⟨⟨m, rfl⟩, creatable_of_createFile hc⟩

/-- **A run succeeds** exactly if there is a result and its destination can be opened. -/
theorem runTransform_eq_ok_iff :
    (runTransform w a).1 = .ok () ↔ (∃ m, Transformed w a m) ∧ Creatable w.tree a.output := by
  simp only [← result_eq_ok_iff]
  constructor
  · intro h
    rcases runTransform_cases w a with ⟨hfailed, -⟩ | hboth
    · exact absurd h hfailed
    · exact hboth
  · rintro ⟨⟨m, hm⟩, hc⟩
    exact (delivered_of_result hm hc).1

/-- A file that can be read from a path can be written to it if that is permitted. -/
theorem creatable_input_iff {t : FileTree} (h : t.find false path = .ok (.file l)) :
    Creatable t (some path) ↔ t.refusal .writing l = none := by
  constructor
  · intro hc
    obtain ⟨l', ⟨hfind, hwriting⟩ | ⟨hfind, -⟩⟩ := hc path rfl
    · rw [h] at hfind
      cases hfind
      exact hwriting
    · rw [h] at hfind
      cases hfind
  · intro hwriting
    rintro _ ⟨rfl⟩
    exact ⟨l, .inl ⟨h, hwriting⟩⟩

/-- The result does not depend on the destination, and any that can be opened will do. -/
theorem delivered_alike (h : (runTransform w a).1 = .ok ()) (hc : Creatable w.tree output) :
    (runTransform w { a with output }).1 = .ok () ∧
    ∃ bytes, Delivered bytes w (runTransform w a).2 a.output ∧
      Delivered bytes w (runTransform w { a with output }).2 output := by
  obtain ⟨⟨m, hm⟩, hown⟩ := runTransform_eq_ok_iff.mp h
  have hresult : w.result a = .ok m := result_eq_ok_iff.mpr hm
  have hresult' : w.result { a with output } = .ok m := hresult
  obtain ⟨hsuccess, hdelivered⟩ := delivered_of_result hresult' hc
  exact ⟨hsuccess, m.toYaml.toUTF8, (delivered_of_result hresult hown).2, hdelivered⟩

/-- A run over its own input succeeds where the file that was read may be written. -/
theorem in_place_iff (hfile : a.file = some path) :
    (runTransform w { a with output := some path }).1 = .ok () ↔
      (∃ m, Transformed w a m) ∧
        ∃ l, w.tree.find false path = .ok (.file l) ∧ w.tree.refusal .writing l = none := by
  -- the output has no part in what is to be written
  have hsame : ∀ m, Transformed w { a with output := some path } m ↔ Transformed w a m :=
    fun m => Iff.rfl
  rw [runTransform_eq_ok_iff]
  simp only [hsame]
  refine and_congr_right ?_
  rintro ⟨m, v, s, -, -, hinput, -⟩
  -- a path that was read leads to a file, so no file is created by it
  rw [hfile] at hinput
  obtain ⟨l, hfind, -⟩ := hinput
  rw [creatable_input_iff hfind]
  constructor
  · intro hwriting
    exact ⟨l, hfind, hwriting⟩
  · rintro ⟨l', hfind', hwriting⟩
    rw [hfind] at hfind'
    cases hfind'
    exact hwriting

/-- **All or nothing.**  A run succeeds exactly if its input is the text of a manifest
    of which every resource is transformed, and its output may be opened for writing.
    Then the output holds what the transformed manifest is written as, and nothing
    else is changed.  Else the world is as it was: no file is created, emptied or
    changed, and nothing is printed.  Any other output that may be opened receives the
    same, be it the input under whatever path.  A run over its own input succeeds
    exactly if there is a result and the file that was read may be written. -/
theorem runTransform_all_or_nothing (w : World) (a : TransformArguments) :
    ((runTransform w a).1 = .ok () ↔
      (∃ m, Transformed w a m) ∧ Creatable w.tree a.output) ∧
    ((runTransform w a).1 = .ok () → ∃ m bytes, Transformed w a m ∧
      m.write (.empty none) = (⟨bytes, none⟩, none) ∧
      Delivered bytes w (runTransform w a).2 a.output) ∧
    ((runTransform w a).1 ≠ .ok () → (runTransform w a).2 = w) ∧
    (∀ output, (runTransform w a).1 = .ok () → Creatable w.tree output →
      (runTransform w { a with output }).1 = .ok () ∧
      ∃ bytes, Delivered bytes w (runTransform w a).2 a.output ∧
        Delivered bytes w (runTransform w { a with output }).2 output) ∧
    (∀ path, a.file = some path →
      ((runTransform w { a with output := some path }).1 = .ok () ↔
        (∃ m, Transformed w a m) ∧
          ∃ l, w.tree.find false path = .ok (.file l) ∧
            w.tree.refusal .writing l = none)) := by
  refine ⟨runTransform_eq_ok_iff, ?_, ?_, fun output => delivered_alike, fun path => in_place_iff⟩
  · intro h
    obtain ⟨⟨m, hm⟩, hc⟩ := runTransform_eq_ok_iff.mp h
    have hdelivered := (delivered_of_result (result_eq_ok_iff.mpr hm) hc).2
    exact ⟨m, m.toYaml.toUTF8, hm, Manifest.write_empty m, hdelivered⟩
  · intro h
    rcases runTransform_cases w a with ⟨-, hsame⟩ | ⟨⟨m, hm⟩, hc⟩
    · exact hsame
    · exact absurd (delivered_of_result hm hc).1 h

/-! ## Through a link -/

theorem eq_ok_of_toOption {ε α : Type} {x : Except ε α} {b : α} (h : x.toOption = some b) :
    x = .ok b := by
  cases x with
  | error e => cases h
  | ok a => exact congrArg Except.ok (Option.some.inj h)

namespace Sample

/-- A job, which the working directory has a link to. -/
def linkedJob (refusal : Access → String → Option FileError) : FileTree where
  entries := [("/etc", .directory),
    ("/etc/job.yaml", .file (String.toUTF8 ("apiVersion: batch/v1\nkind: Job\nspec:\n" ++
      "  template:\n    spec:\n      containers:\n      - name: a\n"))),
    ("/work", .directory), ("/work/latest", .symbolicLink "../etc/job.yaml")]
  workingDirectory := ["work"]
  refusal

def worldOf (tree : FileTree) : World := ⟨.empty, .ok ByteArray.empty, ByteArray.empty, tree⟩

/-- A world in which everything is permitted. -/
def openWorld : World := worldOf (linkedJob fun _ _ => none)

/-- A world in which no file may be written. -/
def lockedWorld : World :=
  worldOf (linkedJob fun access _ => if access = .writing then some .readOnly else none)

/-- The job is read by its location and written by the link. -/
def throughLink : TransformArguments := ⟨some "/etc/job.yaml", some "latest", some "v1.25.0"⟩

end Sample

/-- The job is transformed in place; where it may not be written, nothing happens. -/
theorem runTransform_all_or_nothing_through_link :
    (∃ m bytes, Transformed Sample.openWorld Sample.throughLink m ∧
      m.write (.empty none) = (⟨bytes, none⟩, none) ∧
      (runTransform Sample.openWorld Sample.throughLink).2.tree.content? "/etc/job.yaml" =
        some bytes) ∧
    (runTransform Sample.lockedWorld Sample.throughLink).2 = Sample.lockedWorld := by
  constructor
  · obtain ⟨-, hdelivered, -⟩ :=
      runTransform_all_or_nothing Sample.openWorld Sample.throughLink
    have hsuccess : (runTransform Sample.openWorld Sample.throughLink).1 = .ok () :=
      eq_ok_of_toOption (by decide +kernel)
    obtain ⟨m, bytes, hm, hwrite, -, l, hwrote⟩ := hdelivered hsuccess
    -- the link leads out of the working directory, to the file that was read
    have hplace : Sample.openWorld.tree.find false "latest" = .ok (.file "/etc/job.yaml") :=
      eq_ok_of_toOption (by decide +kernel)
    refine ⟨m, bytes, hm, hwrite, ?_⟩
    have hl : l = "/etc/job.yaml" := by
      rcases hwrote.place with hfile | hfree
      · rw [hplace] at hfile
        cases hfile
        rfl
      · rw [hplace] at hfree
        cases hfree
    rw [← hl]
    exact hwrote.content
  · obtain ⟨hsuccess, -, hfailure, -⟩ :=
      runTransform_all_or_nothing Sample.lockedWorld Sample.throughLink
    refine hfailure ?_
    intro h
    obtain ⟨l, ⟨-, hwriting⟩ | ⟨hfree, -⟩⟩ := (hsuccess.mp h).2 "latest" rfl
    · cases hwriting
    · have hplace : Sample.lockedWorld.tree.find false "latest" = .ok (.file "/etc/job.yaml") :=
        eq_ok_of_toOption (by decide +kernel)
      rw [hplace] at hfree
      cases hfree

end WorkloadEnv.Command
