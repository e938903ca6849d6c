import WorkloadEnv.Json.Basic

/-! # Files

    The files there are, by their locations from the root on.  A path starts at
    the root or in the working directory and is followed name by name, through
    directories and symbolic links.  The place it leads to is a directory, a
    file, or one where a file could be created.

    What may be done at a place is not decided here: the system can refuse
    anything, for a reason of its own (`FileTree.refusal`).  Files are plain
    ones, which keep what is written to them; there are no devices or pipes.
    Paths are texts, as the arguments of the program are. -/

namespace WorkloadEnv.Command

/-- Why a file cannot be opened, read or created. -/
inductive FileError where
  | notFound
  | permissionDenied
  | notDirectory
  | isDirectory
  | readOnly
  | nameTooLong
  | tooManyLinks
  /-- The path has a character that no path may have. -/
  | badPath
  /-- Anything else the system has to say. -/
  | other (message : String)
  deriving DecidableEq, Repr

def FileError.message : FileError → String
  | notFound => "No such file or directory (os error 2)"
  | permissionDenied => "Permission denied (os error 13)"
  | notDirectory => "Not a directory (os error 20)"
  | isDirectory => "Is a directory (os error 21)"
  | readOnly => "Read-only file system (os error 30)"
  | nameTooLong => "File name too long (os error 36)"
  | tooManyLinks => "Too many levels of symbolic links (os error 40)"
  | badPath => "file name contained an unexpected NUL byte"
  | other message => message

/-- What stands at a location. -/
inductive Entry where
  | directory
  | file (content : ByteArray)
  /-- One more name of the file that stands at the given location. -/
  | hardLink (location : String)
  /-- A path that is followed instead, from the directory of the link. -/
  | symbolicLink (path : String)

/-- What the system is asked for. -/
inductive Access where
  /-- To look up a name in a directory. -/
  | search
  /-- To open a file or directory for reading. -/
  | opening
  /-- To read what was opened. -/
  | reading
  /-- To open a file for writing, which empties it. -/
  | writing
  /-- To create a file where there is none. -/
  | creation
  deriving DecidableEq, Repr

/-- All files, and how the system treats them. -/
structure FileTree where
  /-- What there is, by location; the root needs no entry. -/
  entries : Members Entry
  /-- The names of the directory in which a path starts, from the root on. -/
  workingDirectory : List String
  /-- The reason for which the system refuses an access at a location, if it does. -/
  refusal : Access → String → Option FileError

namespace FileTree

/-- The location that some names lead to from the root. -/
def location (names : List String) : String := "/" ++ "/".intercalate names

/-- The content of the file at a location. -/
def content? (t : FileTree) (l : String) : Option ByteArray :=
  match Members.get? l t.entries with
  | some (.file content) => some content
  | _ => none

/-- Asks the system. -/
def permit (t : FileTree) (access : Access) (l : String) : Except FileError Unit :=
  match t.refusal access l with
  | some e => .error e
  | none => .ok ()

/-! ## Following paths -/

/-- Where a path leads. -/
inductive Place where
  /-- A directory, by the names that lead to it from the root. -/
  | directory (names : List String)
  /-- The file at a location. -/
  | file (l : String)
  /-- A location with nothing at it, in a directory there is. -/
  | free (l : String)
  deriving DecidableEq, Repr

/-- What a name stands for: a place, or a path that is followed instead. -/
inductive Target where
  | place (place : Place)
  | link (path : String)
  deriving DecidableEq, Repr

/-- What stands at the end of some names. -/
def targetAt (t : FileTree) (names : List String) : Except FileError Target :=
  match Members.get? (location names) t.entries with
  | none => .ok (.place (.free (location names)))
  | some .directory => .ok (.place (.directory names))
  | some (.file _) => .ok (.place (.file (location names)))
  | some (.hardLink l) =>
    if (t.content? l).isSome then .ok (.place (.file l)) else .error .notFound
  | some (.symbolicLink path) => .ok (.link path)

/-- What a name stands for in a directory; one dot stays where it is, two go up,
    if not beyond the root. -/
def lookup (t : FileTree) (names : List String) (name : String) : Except FileError Target :=
  if name = "." then .ok (.place (.directory names))
  else if name = ".." then .ok (.place (.directory names.dropLast))
  else if 255 < name.utf8ByteSize then .error .nameTooLong
  else t.targetAt (names ++ [name])

/-- How far a path is followed at once: to its end, or to a link, which leaves the
    directory of the link and the names behind it. -/
inductive Walk where
  | arrived (place : Place)
  | redirected (names : List String) (path : String) (rest : List String)
  deriving DecidableEq, Repr

/-- There was a slash at the end of the path. -/
def endsInSlash (rest : List String) : Bool := rest ≠ [] && rest.all (· = "")

/-- Follows the names of a path up to the next link; all but the last have to be
    directories.  A path with a slash at its end asks for a directory, which cannot
    be created as a file. -/
def walk (t : FileTree) (creating : Bool) : Place → List String → Except FileError Walk
  | place, [] => .ok (.arrived place)
  | .directory names, name :: rest =>
    if name = "" then t.walk creating (.directory names) rest
    else do
      t.permit .search (location names)
      if creating && endsInSlash rest then .error .isDirectory
      else
        match ← t.lookup names name with
        | .place place => t.walk creating place rest
        | .link path => .ok (.redirected names path rest)
  | .file _, _ :: _ => .error .notDirectory
  | .free _, _ :: _ => .error .notFound

/-- The names of a path, empty ones where slashes meet. -/
def namesOf (path : String) : List String := (path.toList.splitOn '/').map String.ofList

/-- Where a path starts that is given in a directory.  The empty path leads nowhere. -/
def startOf (names : List String) (path : String) : Except FileError Place :=
  if path = "" then .error .notFound
  else if path.toList.contains '\x00' then .error .badPath
  else if 4095 < path.utf8ByteSize then .error .nameTooLong
  else .ok (.directory (if path.toList.head? = some '/' then [] else names))

/-- Follows the names of a path through all links. -/
def follow (t : FileTree) (creating : Bool) :
    (links : Nat) → Place → List String → Except FileError Place
  | links, place, names => do
    match ← t.walk creating place names with
    | .arrived place => .ok place
    | .redirected here path rest =>
      match links with
      | 0 => .error .tooManyLinks
      | links + 1 =>
        let start ← startOf here path
        t.follow creating links start (namesOf path ++ rest)

/-- How many links are followed on the way to a place. -/
def linkLimit : Nat := 40

/-- The place where a path leads, for a file that is there or is to be created. -/
def find (t : FileTree) (creating : Bool) (path : String) : Except FileError Place := do
  let start ← startOf t.workingDirectory path
  t.follow creating linkLimit start (namesOf path)

/-! ## Reading and creating -/

/-- Opens a file.  What can be read then is its content, or an error if the system
    has one, as it always has for a directory. -/
def openFile (t : FileTree) (path : String) : Except FileError (Except FileError ByteArray) := do
  match ← t.find false path with
  | .directory names =>
    t.permit .opening (location names)
    return .error .isDirectory
  | .file l =>
    t.permit .opening l
    return do
      t.permit .reading l
      return (t.content? l).getD ByteArray.empty
  | .free _ => .error .notFound

/-- The location at which a path creates a file, or takes over the one that is there. -/
def createFile (t : FileTree) (path : String) : Except FileError String := do
  match ← t.find true path with
  | .directory _ => .error .isDirectory
  | .file l =>
    t.permit .writing l
    return l
  | .free l =>
    t.permit .creation l
    return l

/-- Sets the content of a file. -/
def putFile (l : String) (content : ByteArray) (t : FileTree) : FileTree :=
  { t with entries := Members.put l (.file content) t.entries }

/-- Writes behind what a file holds. -/
def appendFile (l : String) (bytes : ByteArray) (t : FileTree) : FileTree :=
  t.putFile l ((t.content? l).getD ByteArray.empty ++ bytes)

end FileTree

end WorkloadEnv.Command
