/-! # Arguments of the command line

    The program has one command with three options.  An option's value is
    attached to it, or is the next argument; then it may not start with a
    hyphen, unless it is a single one.  A value is only checked when its option
    is settled, which is when the next option is met or the arguments end: so of
    two faults the one that is noticed first counts. -/

namespace WorkloadEnv.Command

/-! ## Results -/

/-- The options of the transform command. -/
structure TransformArguments where
  /-- The manifest to read. -/
  file : Option String
  /-- Where to write the result. -/
  output : Option String
  /-- The minimum version to set. -/
  minVersion : Option String
  deriving DecidableEq, Repr

def TransformArguments.none : TransformArguments := ⟨.none, .none, .none⟩

/-- What a help text is about. -/
inductive HelpTopic where
  | program
  | transform
  /-- The transform command in short. -/
  | transformSummary
  | help
  deriving DecidableEq, Repr

/-- Why there is no command to run. -/
inductive UsageExit where
  | help (topic : HelpTopic)
  | version
  | missingCommand
  | unknownCommand
  | unknownArgument
  /-- The value of an option is missing, or an empty path. -/
  | badValue
  /-- A flag has a value. -/
  | unneededValue
  /-- An option is given twice. -/
  | repeatedOption
  deriving DecidableEq, Repr

/-- Asking for help or the version is no failure. -/
def UsageExit.exitCode : UsageExit → UInt32
  | help _ | version => 0
  | _ => 2

/-! ## Options -/

inductive OptionName where
  | file
  | output
  | minVersion
  deriving DecidableEq, Repr

namespace OptionName

def ofLong? (s : String) : Option OptionName :=
  if s = "file" then some file
  else if s = "output" then some output
  else if s = "kubernetes-min-version" then some minVersion
  else none

def ofShort? (c : Char) : Option OptionName :=
  if c = 'f' then some file else if c = 'o' then some output else none

/-- Is the value of the option a path? -/
def isPath : OptionName → Bool
  | minVersion => false
  | _ => true

/-- The value of the option, if it was given. -/
def get? (a : TransformArguments) : OptionName → Option String
  | file => a.file
  | output => a.output
  | minVersion => a.minVersion

def put (a : TransformArguments) (value : String) : OptionName → TransformArguments
  | file => { a with file := some value }
  | output => { a with output := some value }
  | minVersion => { a with minVersion := some value }

end OptionName

/-- An argument by its form. -/
inductive Form where
  /-- Two hyphens: no option comes after them. -/
  | terminator
  /-- A name after two hyphens, and a value after an equals sign. -/
  | long (name : String) (value : Option String)
  /-- A letter after one hyphen, and the rest of the argument. -/
  | short (letter : Char) (rest : String)
  | operand (s : String)
  deriving DecidableEq, Repr

/-- Splits at the first equals sign. -/
def splitEquals (cs : List Char) : String × Option String :=
  let name := String.ofList (cs.takeWhile (· ≠ '='))
  match cs.dropWhile (· ≠ '=') with
  | _ :: value => (name, some (String.ofList value))
  | [] => (name, none)

def Form.ofArgument (s : String) : Form :=
  match s.toList with
  | ['-', '-'] => terminator
  | '-' :: '-' :: cs =>
    let (name, value) := splitEquals cs
    long name value
  | '-' :: c :: cs => short c (String.ofList cs)
  | _ => operand s

/-- The value that is attached to the letter of an option. -/
def attachedValue? (rest : String) : Option String :=
  match rest.toList with
  | [] => none
  | '=' :: cs => some (String.ofList cs)
  | cs => some (String.ofList cs)

/-! ## The transform command -/

/-- An option that was met and is not settled yet. -/
structure OpenOption where
  name : OptionName
  value : Option String

/-- The arguments so far, and the option that is still open. -/
structure ArgumentState where
  arguments : TransformArguments
  current : Option OpenOption

namespace ArgumentState

/-- Gives an option its value, once, and no empty path. -/
def assign (name : OptionName) (value : String) (a : TransformArguments) :
    Except UsageExit TransformArguments :=
  if (name.get? a).isSome then .error .repeatedOption
  else if name.isPath && value = "" then .error .badValue
  else .ok (name.put a value)

/-- Settles the option that is open. -/
def settle (s : ArgumentState) : Except UsageExit TransformArguments :=
  match s.current with
  | none => .ok s.arguments
  | some ⟨_, none⟩ => .error .badValue
  | some ⟨name, some value⟩ => assign name value s.arguments

/-- Settles the open option and takes the next one, with the value attached to it. -/
def takeOption (name : OptionName) (attached : Option String) (s : ArgumentState) :
    Except UsageExit ArgumentState := do
  let a ← s.settle
  match attached with
  | some value => return ⟨← assign name value a, none⟩
  | none => return ⟨a, some ⟨name, none⟩⟩

/-- Settles the open option and then asks for help. -/
def askHelp {α : Type} (topic : HelpTopic) (s : ArgumentState) : Except UsageExit α := do
  let _ ← s.settle
  .error (.help topic)

/-- Takes one argument. -/
def take (s : ArgumentState) : Form → Except UsageExit ArgumentState
  | .long name value =>
    match OptionName.ofLong? name with
    | some option => s.takeOption option value
    | none =>
      if name = "help" then
        if value.isSome then .error .unneededValue else s.askHelp .transform
      else .error .unknownArgument
  | .short letter rest =>
    match OptionName.ofShort? letter with
    | some option => s.takeOption option (attachedValue? rest)
    | none => if letter = 'h' then s.askHelp .transformSummary else .error .unknownArgument
  | .operand value =>
    match s.current with
    | some ⟨name, none⟩ => .ok { s with current := some ⟨name, some value⟩ }
    | _ => .error .unknownArgument
  | .terminator => .ok s

end ArgumentState

/-- Takes the arguments one by one; after the terminator there may be none. -/
def parseTransform : ArgumentState → List String → Except UsageExit TransformArguments
  | s, [] => s.settle
  | s, arg :: args =>
    match Form.ofArgument arg with
    | .terminator => if args.isEmpty then s.settle else .error .unknownArgument
    | form => do parseTransform (← s.take form) args

/-! ## The program -/

def transformName : String := "transform"

/-- What help is asked for by name; there is help for one command, or for help itself. -/
def parseHelp : List String → UsageExit
  | [] => .help .program
  | [name] =>
    if name = transformName then .help .transform
    else if name = "help" then .help .help
    else .unknownCommand
  | _ => .unknownCommand

/-- Reads the arguments of the program. -/
def parseArguments : List String → Except UsageExit TransformArguments
  | [] => .error .missingCommand
  | arg :: args =>
    match Form.ofArgument arg with
    | .terminator =>
      match args with
      | [] => .error .missingCommand
      | name :: _ =>
        if name = transformName || name = "help" then .error .unknownArgument
        else .error .unknownCommand
    | .long name value =>
      if name = "help" || name = "version" then
        if value.isSome then .error .unneededValue
        else .error (if name = "help" then .help .program else .version)
      else .error .unknownArgument
    | .short letter _ =>
      if letter = 'h' then .error (.help .program)
      else if letter = 'V' then .error .version
      else .error .unknownArgument
    | .operand name =>
      if name = transformName then parseTransform ⟨.none, none⟩ args
      else if name = "help" then .error (parseHelp args)
      else .error .unknownCommand

end WorkloadEnv.Command
