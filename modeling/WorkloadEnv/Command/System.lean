import WorkloadEnv.Command.Files
import WorkloadEnv.Config.Environment

/-! # What the program runs on

    A program asks the system it runs on for a few things, each of them an effect
    of some monad (`System`).  One such system is a world of values, in which a
    program is a function from worlds to worlds (`World.system`); another one is
    the process that the program is. -/

namespace WorkloadEnv.Command

/-- What the program asks a system for.  Files that were opened for writing are
    told apart by values of `Target`. -/
structure System (m : Type → Type) (Target : Type) where
  environment : m Environment
  /-- Reads standard input to its end. -/
  readStdin : m (Except FileError ByteArray)
  /-- Opens a file and reads it to its end; either can fail. -/
  readFile : String → m (Except FileError (Except FileError ByteArray))
  /-- Opens a file for writing.  From then on it is there, and empty. -/
  createFile : String → m (Except FileError Target)
  /-- Writes to a file, behind what was written before. -/
  writeFile : Target → ByteArray → m Unit
  /-- Writes to standard output. -/
  print : ByteArray → m Unit
  /-- Tells the user of a failure, apart from the output. -/
  complain : String → m Unit

/-- What a program works with. -/
structure World where
  environment : Environment
  /-- What can be read from standard input. -/
  stdin : Except FileError ByteArray
  /-- What was written to standard output. -/
  stdout : ByteArray
  tree : FileTree

namespace World

/-- Opens a file for writing.  A target is the location of the file. -/
def createFile (path : String) (w : World) : Except FileError String × World :=
  match w.tree.createFile path with
  | .error e => (.error e, w)
  | .ok l => (.ok l, { w with tree := w.tree.putFile l ByteArray.empty })

/-- A world as a system.  What is open takes all that is written to it; complaints
    are not part of a world. -/
def system : System (StateM World) String where
  environment := return (← get).environment
  readStdin := return (← get).stdin
  readFile path := return (← get).tree.openFile path
  createFile path := modifyGet (createFile path)
  writeFile l bytes := modify fun w => { w with tree := w.tree.appendFile l bytes }
  print bytes := modify fun w => { w with stdout := w.stdout ++ bytes }
  complain _ := pure ()

end World

end WorkloadEnv.Command
