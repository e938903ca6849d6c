import WorkloadEnv.Command.Run
import WorkloadEnv.Proofs.Command.Opening
import WorkloadEnv.Proofs.Manifest.Writing

/-! # The command step by step

    What each part of the transform command does to a world.  Up to its last part
    it only looks: there is a result or an error, and the world is as it was
    (`run_readResult`).  The last part can still fail to open the output, and
    then nothing has happened either (`run_writeOutput_not_created`).

    The program adds an exit code to that, and texts for the user
    (`runProgram_of_arguments`, `runProgram_of_usage`). -/

namespace WorkloadEnv.Command

variable {w w' : World} {a : TransformArguments} {m : Manifest} {path l : String}
  {cause : CommandError} {e : FileError} {args : List String} {usage : UsageExit}

namespace World

variable {α β : Type} {action : ExceptT CommandError (StateM World) α}
  {next : α → ExceptT CommandError (StateM World) β}

/-! ## Sequences -/

/-- After a part that succeeds comes the next one, in the world that is left behind. -/
theorem run_bind_of_ok {x : α} (h : w.run action = (.ok x, w')) :
    w.run (action >>= next) = w'.run (next x) := by
  have haction : action.run w = (.ok x, w') := h
  show (StateT.bind action.run (ExceptT.bindCont next)) w = _
  simp only [StateT.bind, haction, bind]
  rfl

/-- After a part that fails comes nothing. -/
theorem run_bind_of_error (h : w.run action = (.error cause, w')) :
    w.run (action >>= next) = (.error cause, w') := by
  have haction : action.run w = (.error cause, w') := h
  show (StateT.bind action.run (ExceptT.bindCont next)) w = _
  simp only [StateT.bind, haction, bind]
  rfl

/-- Parts that only look at the world do so together. -/
theorem run_bind_look {x : Except CommandError α} {f : α → Except CommandError β}
    (h : w.run action = (x, w)) (hnext : ∀ y, w.run (next y) = (f y, w)) :
    w.run (action >>= next) = (x >>= f, w) := by
  cases x with
  | error cause => exact run_bind_of_error h
  | ok y =>
    rw [run_bind_of_ok h]
    exact hnext y

theorem run_effect (effect : StateM World α) (w : World) :
    w.run (liftM effect) = (.ok (effect.run w).1, (effect.run w).2) := rfl

theorem run_outcome (outcome : Except CommandError α) (w : World) :
    w.run (liftM outcome) = (outcome, w) := rfl

/-! ## The result -/

/-- What there is to read for an input. -/
def input (w : World) : Option String → Except CommandError ByteSource
  | none => .ok (sourceOf w.stdin)
  | some path => ((w.tree.openFile path).map sourceOf).mapError (.openFile path)

/-- The manifest that is to be written. -/
def result (w : World) (a : TransformArguments) : Except CommandError Manifest := do
  let config ← configOf w.environment a
  let source ← w.input a.file
  resultOf config source

theorem run_readInput (w : World) (file : Option String) :
    w.run (readInput system file) = (w.input file, w) := by
  cases file with
  | none => rfl
  | some path =>
    have hread : w.run (liftM (system.readFile path)) = (.ok (w.tree.openFile path), w) := rfl
    rw [readInput, run_bind_of_ok hread, input]
    cases w.tree.openFile path <;> rfl

/-- **Until there is a result, nothing happens.** -/
theorem run_readResult (w : World) (a : TransformArguments) :
    w.run (readResult system a) = (w.result a, w) := by
  have henvironment : w.run (liftM system.environment) = (.ok w.environment, w) := rfl
  rw [readResult, run_bind_of_ok henvironment]
  refine run_bind_look (run_outcome _ w) fun config => ?_
  refine run_bind_look (run_readInput w a.file) fun source => ?_
  exact run_outcome _ w

/-! ## The output -/

/-- All that a manifest is written as is brought to its destination. -/
theorem run_writeManifest {put : ByteArray → StateM World Unit}
    (hput : (put m.toYaml.toUTF8).run w = ((), w')) :
    w.run (writeManifest put m) = (.ok (), w') := by
  have heffect : w.run (liftM (put m.toYaml.toUTF8)) = (.ok (), w') := by
    rw [run_effect, hput]
  unfold writeManifest
  simp only [Manifest.write_empty]
  rw [run_bind_of_ok heffect]
  rfl

theorem run_writeOutput_stdout (m : Manifest) (w : World) :
    w.run (writeOutput system m none) =
      (.ok (), { w with stdout := w.stdout ++ m.toYaml.toUTF8 }) :=
  run_writeManifest rfl

theorem run_createFile (w : World) (path : String) :
    w.run (liftM (system.createFile path)) =
      (.ok (w.createFile path).1, (w.createFile path).2) := rfl

theorem run_writeOutput_not_created (m : Manifest) (h : w.tree.createFile path = .error e) :
    w.run (writeOutput system m (some path)) = (.error (.createFile path e), w) := by
  have hcreate : w.run (liftM (system.createFile path)) = (.ok (.error e), w) := by
    rw [run_createFile, createFile, h]
  rw [writeOutput, run_bind_of_ok hcreate]
  rfl

/-- The file that was emptied is the one that is written. -/
theorem run_writeOutput_file (m : Manifest) (h : w.tree.createFile path = .ok l) :
    w.run (writeOutput system m (some path)) =
      (.ok (), { w with tree := w.tree.putFile l m.toYaml.toUTF8 }) := by
  have hcreate : w.run (liftM (system.createFile path)) =
      (.ok (.ok l), { w with tree := w.tree.putFile l ByteArray.empty }) := by
    rw [run_createFile, createFile, h]
  rw [writeOutput, run_bind_of_ok hcreate]
  apply run_writeManifest
  -- the file is empty when the text comes, so the text is all that it holds
  show ((), { w with
    tree := (w.tree.putFile l ByteArray.empty).appendFile l m.toYaml.toUTF8 }) = _
  rw [FileTree.appendFile_putFile_empty]

end World

/-! ## The command -/

/-- Without a result, nothing happens. -/
theorem runTransform_of_error (h : w.result a = .error cause) :
    runTransform w a = (.error cause, w) := by
  have hread := World.run_readResult w a
  rw [h] at hread
  exact World.run_bind_of_error hread

/-- With a result, all that is left is to write it. -/
theorem runTransform_of_ok (h : w.result a = .ok m) :
    runTransform w a = w.run (writeOutput World.system m a.output) := by
  have hread := World.run_readResult w a
  rw [h] at hread
  exact World.run_bind_of_ok hread

/-! ## The program -/

theorem runProgram_of_ok (h : parseArguments args = .ok a)
    (hrun : runTransform w a = (.ok (), w')) : runProgram w args = (0, w') := by
  have haction : (transform World.system a).run.run w = (.ok (), w') := hrun
  unfold runProgram program
  simp only [h, StateT.run_bind, haction]
  rfl

theorem runProgram_of_error (h : parseArguments args = .ok a)
    (hrun : runTransform w a = (.error cause, w')) : runProgram w args = (1, w') := by
  have haction : (transform World.system a).run.run w = (.error cause, w') := hrun
  unfold runProgram program
  simp only [h, StateT.run_bind, haction]
  rfl

/-- **The program is the command**, if its arguments ask for that: it leaves the same
    world behind, and its exit code tells whether the command succeeded. -/
theorem runProgram_of_arguments (h : parseArguments args = .ok a) :
    (runProgram w args).2 = (runTransform w a).2 ∧
      ((runProgram w args).1 = 0 ↔ (runTransform w a).1 = .ok ()) := by
  rcases hrun : runTransform w a with ⟨cause | success, w'⟩
  · rw [runProgram_of_error h hrun]
    simp
  · rw [runProgram_of_ok h hrun]
    simp

/-- Without a command no file is touched; there is at most a text to print. -/
theorem runProgram_of_usage (h : parseArguments args = .error usage) :
    runProgram w args = (usage.exitCode, { w with stdout := w.stdout ++ usage.text.toUTF8 }) := by
  unfold runProgram program
  rw [h]
  by_cases hcode : usage.exitCode = 0
  · simp [hcode]
    rfl
  · simp [hcode]
    rfl

end WorkloadEnv.Command
