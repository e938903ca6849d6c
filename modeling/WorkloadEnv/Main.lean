import WorkloadEnv.Command.Run

/-! # The command line

    The process as a system that programs run on.  Whatever is decided is decided
    by `Command.program`; this module reads, writes, and tells what went wrong
    with that. -/

namespace WorkloadEnv.Main

open WorkloadEnv.Command

/-- What the system says, with its number. -/
def systemError (details : String) (code : UInt32) : FileError :=
  .other (details ++ " (os error " ++ toString code ++ ")")

/-- The error of a file operation. -/
def fileError : IO.Error → FileError
  | .noFileOrDirectory _ _ _ => .notFound
  | .permissionDenied _ code details | .inappropriateType _ code details
  | .invalidArgument _ code details | .resourceExhausted _ code details =>
    systemError details code
  | .otherError code details => systemError details code
  | e => .other (toString e)

/-- An action that may fail. -/
def attempt {α : Type} (action : IO α) : IO (Except FileError α) := do
  try
    return .ok (← action)
  catch e =>
    return .error (fileError e)

/-- Reads a stream to its end. -/
partial def readAll (stream : IO.FS.Stream) (acc : ByteArray) : IO ByteArray := do
  let chunk ← stream.read 65536
  if chunk.isEmpty then return acc else readAll stream (acc ++ chunk)

/-- The environment of the process, as far as it is of use. -/
def processEnvironment : IO Environment := do
  match ← IO.getEnv minVersionVariable with
  | some value => return Environment.empty.assign minVersionVariable (some value)
  | none => return Environment.empty

/-- Opens a file and reads it to its end. -/
def readFile (path : String) : IO (Except FileError (Except FileError ByteArray)) := do
  match ← attempt (IO.FS.Handle.mk path .read) with
  | .error e => return .error e
  | .ok handle => return .ok (← attempt (readAll (IO.FS.Stream.ofHandle handle) ByteArray.empty))

/-- The process as a system. -/
def system : System IO IO.FS.Handle where
  environment := processEnvironment
  readStdin := do attempt (readAll (← IO.getStdin) ByteArray.empty)
  readFile := readFile
  createFile path := attempt (IO.FS.Handle.mk path .write)
  writeFile handle bytes := do
    handle.write bytes
    handle.flush
  print bytes := do
    let stdout ← IO.getStdout
    stdout.write bytes
    stdout.flush
  complain := IO.eprint

end WorkloadEnv.Main

/-- The program; output that cannot be written ends it. -/
def main (args : List String) : IO UInt32 := do
  try
    WorkloadEnv.Command.program WorkloadEnv.Main.system args
  catch e =>
    IO.eprintln ("Error: " ++ toString e)
    return 1
