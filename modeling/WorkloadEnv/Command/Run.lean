import WorkloadEnv.Command.Help
import WorkloadEnv.Command.System
import WorkloadEnv.Config.MinVersion
import WorkloadEnv.Manifest.Reader
import WorkloadEnv.Manifest.Writer

/-! # Running the program

    The transform command reads a manifest, transforms every resource of it, and
    writes the result.  Nothing is written before the whole result is known and
    its destination is open: a command that fails leaves every file as it was.

    The command is one program for all systems (`transform`, `program`).  What
    it does is told by its runs in a world (`runTransform`, `runProgram`). -/

namespace WorkloadEnv.Command

/-- Why the command failed. -/
inductive CommandError where
  | config (cause : ConfigError)
  | openFile (path : String) (cause : FileError)
  | manifest (cause : ManifestError)
  /-- Some resources could not be transformed; there is at least one. -/
  | transform (failures : List ResourceError)
  | createFile (path : String) (cause : FileError)
  deriving DecidableEq, Repr

namespace CommandError

def message? : CommandError → Option String
  | config cause => some ("Failed to resolve configuration: " ++ cause.message)
  | openFile path cause => some ("Failed to open manifest file `" ++ path ++ "`: " ++ cause.message)
  | manifest cause => cause.message?
  | transform failures => some (toString failures.length ++
      " resource(s) could not be transformed, first: " ++
      ((failures.head?.map ResourceError.message).getD ""))
  | createFile path cause =>
    some ("Failed to create output file `" ++ path ++ "`: " ++ cause.message)

/-- Advice for the user. -/
def help? : CommandError → Option String
  | config _ => some "Check the value of the `KUBERNETES_MIN_VERSION` environment variable."
  | transform _ =>
    some "Every failed resource is logged, rerun with `RUST_LOG=minver=debug` for details."
  | _ => none

/-- What the user is told. -/
def report (e : CommandError) : String :=
  lines (("Error: " ++ e.message?.getD "the manifest is not well formed") ::
    e.help?.toList.map ("Help: " ++ ·))

end CommandError

/-! ## From the input to the result -/

/-- The configuration of a run. -/
def configOf (env : Environment) (a : TransformArguments) : Except CommandError MinVersionConfig :=
  (MinVersionConfig.resolve a.minVersion env).mapError .config

/-- What was read of an opened input, as a source of a manifest. -/
def sourceOf : Except FileError ByteArray → ByteSource
  | .ok bytes => .ofBytes bytes
  | .error e => ⟨ByteArray.empty, some e.message⟩

/-- The transformed manifest, if no resource fails. -/
def transformAll (config : MinVersionConfig) (m : Manifest) : Except CommandError Manifest :=
  match m.transform config.transform.transformer with
  | (m, []) => .ok m
  | (_, failures) => .error (.transform failures)

/-- The manifest that is to be written for an input. -/
def resultOf (config : MinVersionConfig) (source : ByteSource) : Except CommandError Manifest := do
  let m ← (Manifest.ofSource source).mapError .manifest
  transformAll config m

/-! ## The command -/

section

variable {m : Type → Type} [Monad m] {Target : Type}

/-- Reads the input, from the file if one is given. -/
def readInput (sys : System m Target) : Option String → ExceptT CommandError m ByteSource
  | none => return sourceOf (← sys.readStdin)
  | some path => do
    match ← sys.readFile path with
    | .error e => throw (.openFile path e)
    | .ok read => return sourceOf read

/-- Reads all of the input, and finds out what is to be written. -/
def readResult (sys : System m Target) (a : TransformArguments) :
    ExceptT CommandError m Manifest := do
  let config ← configOf (← sys.environment) a
  let source ← readInput sys a.file
  resultOf config source

/-- Writes a manifest to where `put` brings it. -/
def writeManifest (put : ByteArray → m Unit) (result : Manifest) :
    ExceptT CommandError m Unit := do
  let (sink, failure) := result.write (.empty none)
  put sink.written
  failure.forM fun e => throw (.manifest e)

/-- Writes the result, to the file if one is given. -/
def writeOutput (sys : System m Target) (result : Manifest) :
    Option String → ExceptT CommandError m Unit
  | none => writeManifest sys.print result
  | some path => do
    match ← sys.createFile path with
    | .error e => throw (.createFile path e)
    | .ok target => writeManifest (sys.writeFile target) result

/-- The transform command.  Its output is opened last, when all of the input was
    read and all of the result is known. -/
def transform (sys : System m Target) (a : TransformArguments) : ExceptT CommandError m Unit := do
  let result ← readResult sys a
  writeOutput sys result a.output

/-- The program with its arguments; it ends with an exit code. -/
def program (sys : System m Target) (args : List String) : m UInt32 := do
  match parseArguments args with
  | .error e =>
    sys.print e.text.toUTF8
    if e.exitCode ≠ 0 then
      sys.complain programHelp
    return e.exitCode
  | .ok a =>
    match ← (transform sys a).run with
    | .ok () => return 0
    | .error e =>
      sys.complain e.report
      return 1

end

/-! ## In a world -/

/-- Runs a part of a command: what comes of it, and the world it leaves behind. -/
def World.run {α : Type} (action : ExceptT CommandError (StateM World) α) (w : World) :
    Except CommandError α × World :=
  action.run.run w

/-- The command as a function of the world it finds. -/
def runTransform (w : World) (a : TransformArguments) : Except CommandError Unit × World :=
  w.run (transform World.system a)

/-- The program as such a function. -/
def runProgram (w : World) (args : List String) : UInt32 × World :=
  (program World.system args).run w

end WorkloadEnv.Command
