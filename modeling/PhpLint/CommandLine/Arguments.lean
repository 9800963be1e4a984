import PhpLint.CommandLine.Flag
import PhpLint.FilePath
import PhpLint.Report.Output

/-!
# Reading the command line

The arguments are read from left to right: flags, then the command, then its own flags and its path
in any order.  The value of a flag follows it, in the same argument or as the next one, which then may
not look like a flag.  After two dashes nothing is a flag any more.

A value from the next argument is looked at only when something else follows it or the arguments end.
So a request for help wins over mistakes behind it, and over a value right before the command.
-/

namespace PhpLint.CommandLine

/-- What an argument is, by its looks. -/
inductive Argument
  /-- Two dashes: nothing after it is a flag. -/
  | separator
  /-- A flag by its long name, and the value after an equals sign. -/
  | long (name : Text) (value : Option Text)
  /-- Flags by their letters, or one letter and its value. -/
  | short (letters : Text)
  | word (t : Text)
  deriving DecidableEq, Repr

/-- What an argument is, by its looks.  A single dash is a word. -/
def Argument.ofText : Text → Argument
  | ['-', '-'] => separator
  | '-' :: '-' :: rest =>
    match Text.cut ['='] rest with
    | some (name, value) => long name (some value)
    | none => long rest none
  | '-' :: c :: rest => short (c :: rest)
  | t => word t

/-- Why arguments make no sense. -/
inductive UsageError
  | unknownFlag (t : Text)
  | repeated (f : Flag)
  | missingValue (f : Flag)
  | unexpectedValue (f : Flag)
  | unknownFormat (t : Text)
  | emptyPath
  | unexpectedArgument (t : Text)
  | missingCommand
  | unknownCommand (t : Text)
  deriving DecidableEq, Repr

/-- The wording of an error. -/
def UsageError.message : UsageError → String
  | unknownFlag t => s!"unexpected argument '{String.ofList t}' found"
  | repeated f => s!"the argument '--{f.name}' cannot be used multiple times"
  | missingValue f => s!"a value is required for '--{f.name}' but none was supplied"
  | unexpectedValue f => s!"unexpected value for '--{f.name}' found; no more were expected"
  | unknownFormat t => s!"invalid value '{String.ofList t}' for '--format'"
  | emptyPath => "a value is required for a path but none was supplied"
  | unexpectedArgument t => s!"unexpected argument '{String.ofList t}' found"
  | missingCommand => "a command is required but none was provided"
  | unknownCommand t => s!"unrecognized command '{String.ofList t}'"

/-- What help is asked about. -/
inductive Topic
  | program
  | command (v : Verb)
  /-- The command for help itself. -/
  | help
  deriving DecidableEq, Repr

/-- Why the arguments ask for no command to be run. -/
inductive Stop
  | mistake (e : UsageError)
  /-- Help is asked for, at length or not. -/
  | help (topic : Topic) (long : Bool)
  | version
  deriving DecidableEq, Repr

/-- What flags and other arguments say. -/
structure Given where
  verbose : Bool := false
  force : Bool := false
  config : Option FilePath := none
  format : Option OutputFormat := none
  sniffs : Option Text := none
  exclusions : List Text := []
  path : Option FilePath := none
  deriving DecidableEq, Repr

namespace Given

/-- The path that an argument writes. -/
def pathOf (t : Text) : Except Stop FilePath :=
  if t.isEmpty then .error (.mistake .emptyPath) else .ok ⟨t⟩

/-- A value in a place where there is none yet. -/
def once (f : Flag) (place : Option α) (new : α) : Except Stop (Option α) :=
  if place.isSome then .error (.mistake (.repeated f)) else .ok (some new)

/-- What is said when a flag with a value is added. -/
def put (g : Given) (f : Flag) (value : Text) : Except Stop Given :=
  match f with
  | .config => do
    let config ← once f g.config (← pathOf value)
    return { g with config }
  | .format =>
    match OutputFormat.ofName? value with
    | some chosen => do
      let format ← once f g.format chosen
      return { g with format }
    | none => .error (.mistake (.unknownFormat value))
  | .sniffs => do
    let sniffs ← once f g.sniffs value
    return { g with sniffs }
  | .exclude => .ok { g with exclusions := g.exclusions ++ [value] }
  | _ => .error (.mistake (.unexpectedValue f))

/-- The topic of help for a command, or for the program before there is one. -/
def topic : Option Verb → Topic
  | some v => .command v
  | none => .program

/-- What is said when a flag without a value is added. -/
def switch (g : Given) (verb : Option Verb) (long : Bool) (f : Flag) : Except Stop Given :=
  match f with
  | .verbose => if g.verbose then .error (.mistake (.repeated f)) else .ok { g with verbose := true }
  | .force => if g.force then .error (.mistake (.repeated f)) else .ok { g with force := true }
  | .help => .error (.help (topic verb) long)
  | .version => .error .version
  | _ => .error (.mistake (.missingValue f))

/-- What is said when a word is added that is no value of a flag. -/
def addWord (g : Given) (verb : Verb) (t : Text) : Except Stop Given :=
  if verb.takesPath && g.path.isNone then (pathOf t).map fun p => { g with path := some p }
  else .error (.mistake (.unexpectedArgument t))

end Given

/-- The flag whose value has not been looked at. -/
inductive Pending
  | nothing
  /-- The value has to follow. -/
  | awaited (f : Flag)
  /-- The value is there. -/
  | held (f : Flag) (value : Text)
  deriving DecidableEq, Repr

/-- How far the arguments have been read. -/
structure Reading where
  given : Given := {}
  pending : Pending := .nothing
  deriving DecidableEq, Repr

namespace Reading

/-- What is said once the value that is pending has been looked at. -/
def settle (r : Reading) : Except Stop Given :=
  match r.pending with
  | .nothing => .ok r.given
  | .awaited f => .error (.mistake (.missingValue f))
  | .held f value => r.given.put f value

/-- A flag with its value has been read. -/
def addValue (g : Given) (f : Flag) (value : Text) : Except Stop Reading :=
  (g.put f value).map fun g => ⟨g, .nothing⟩

/-- A flag has been read by its long name. -/
def addLong (verb : Option Verb) (g : Given) (name : Text) (value : Option Text) :
    Except Stop Reading :=
  match Flag.named? verb name, value with
  | none, _ => .error (.mistake (.unknownFlag ('-' :: '-' :: name)))
  | some f, some v => if f.takesValue then addValue g f v else .error (.mistake (.unexpectedValue f))
  | some f, none =>
    if f.takesValue then .ok ⟨g, .awaited f⟩ else (g.switch verb true f).map fun g => ⟨g, .nothing⟩

/-- Flags have been read by their letters.  What follows the letter of a flag that takes a value is
the value, less an equals sign. -/
def addShort (verb : Option Verb) (g : Given) : Text → Except Stop Reading
  | [] => .ok ⟨g, .nothing⟩
  | c :: rest =>
    match Flag.lettered? verb c with
    | none => .error (.mistake (.unknownFlag ['-', c]))
    | some f =>
      if f.takesValue then
        match rest with
        | [] => .ok ⟨g, .awaited f⟩
        | '=' :: value => addValue g f value
        | value => addValue g f value
      else
        match g.switch verb false f with
        | .ok g => addShort verb g rest
        | .error stop => .error stop

end Reading

/-- What the arguments after a command say. -/
def readAfter (verb : Verb) (r : Reading) : List Text → Except Stop Given
  | [] => r.settle
  | a :: rest =>
    match r.pending, Argument.ofText a with
    | .awaited f, .word t => readAfter verb ⟨r.given, .held f t⟩ rest
    | .awaited f, _ => .error (.mistake (.missingValue f))
    | _, .separator => do
      let g ← r.settle
      rest.foldlM (Given.addWord · verb) g
    | _, .word t => do
      let g ← r.settle
      readAfter verb ⟨← g.addWord verb t, .nothing⟩ rest
    | _, .long name value => do
      let g ← r.settle
      readAfter verb (← Reading.addLong (some verb) g name value) rest
    | _, .short letters => do
      let g ← r.settle
      readAfter verb (← Reading.addShort (some verb) g letters) rest

/-- What is asked for by the command for help. -/
def readHelp : List Text → Stop
  | [] => .help .program true
  | name :: rest =>
    let topic := if name = "help".toList then some .help else (Verb.ofName? name).map .command
    match topic, rest with
    | none, _ => .mistake (.unknownCommand name)
    | some t, [] => .help t true
    | some _, extra :: _ => .mistake (.unknownCommand extra)

/-- What the arguments say before the command, the command, and what they say after it. -/
def readProgram (r : Reading) : List Text → Except Stop (Given × Verb × Given)
  | [] => do
    let _ ← r.settle
    .error (.mistake .missingCommand)
  | a :: rest =>
    match r.pending, Argument.ofText a with
    | .awaited f, .word t => readProgram ⟨r.given, .held f t⟩ rest
    | .awaited f, _ => .error (.mistake (.missingValue f))
    | _, .separator =>
      match rest with
      | [] => .error (.mistake .missingCommand)
      | t :: _ => .error (.mistake (.unexpectedArgument t))
    | _, .word t =>
      if t = "help".toList then .error (readHelp rest)
      else
        match Verb.ofName? t with
        | some verb => do
          let after ← readAfter verb {} rest
          return (← r.settle, verb, after)
        | none => .error (.mistake (.unknownCommand t))
    | _, .long name value => do
      let g ← r.settle
      readProgram (← Reading.addLong none g name value) rest
    | _, .short letters => do
      let g ← r.settle
      readProgram (← Reading.addShort none g letters) rest

/-- A command and what it needs to be run. -/
inductive Command
  | check (path : FilePath) (format : OutputFormat) (sniffs : Option Text) (exclusions : List Text)
  | listSniffs
  | listExtensions (path : FilePath)
  | init (force : Bool)
  deriving DecidableEq, Repr

/-- What the arguments ask for. -/
structure Invocation where
  verbose : Bool
  config : Option FilePath
  command : Command
  deriving DecidableEq, Repr

namespace Invocation

/-- The path that counts when none is given. -/
def defaultPath : FilePath := .ofString "."

/-- The command that the arguments after it make up. -/
def commandOf (g : Given) : Verb → Command
  | .check =>
    .check (g.path.getD defaultPath) (g.format.getD .text) g.sniffs g.exclusions
  | .listSniffs => .listSniffs
  | .listExtensions => .listExtensions (g.path.getD defaultPath)
  | .init => .init g.force

/-- What arguments ask for, where a fallback may stand in for the configuration file.  The flag after
the command counts before the one in front of it, and that one before the fallback; but the fallback
has to make sense unless both are given. -/
def ofArguments (fallback : Option Text) (arguments : List Text) : Except Stop Invocation := do
  let (before, verb, after) ← readProgram {} arguments
  if fallback = some [] ∧ (before.config = none ∨ after.config = none) then
    .error (.mistake .emptyPath)
  else
    return {
      verbose := before.verbose || after.verbose
      config := (after.config.or before.config).or (fallback.map FilePath.mk)
      command := commandOf after verb }

end Invocation

end PhpLint.CommandLine
