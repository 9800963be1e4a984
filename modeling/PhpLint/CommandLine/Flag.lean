import PhpLint.Text

/-!
# Commands and flags

The program has four commands.  Every command knows some flags, and some flags may stand before the
command as well.  A flag has a long name, most have a letter, and some take a value.
-/

namespace PhpLint.CommandLine

/-- A command of the program. -/
inductive Verb
  | check | listSniffs | listExtensions | init
  deriving DecidableEq, Repr

namespace Verb

/-- All commands. -/
def all : List Verb := [check, listSniffs, listExtensions, init]

/-- The name of a command. -/
def name : Verb → String
  | check => "check"
  | listSniffs => "list-sniffs"
  | listExtensions => "list-extensions"
  | init => "init"

/-- The command of a name. -/
def ofName? (t : Text) : Option Verb := all.find? fun v => v.name.toList == t

/-- The command takes a path. -/
def takesPath : Verb → Bool
  | check => true
  | listExtensions => true
  | _ => false

end Verb

/-- A flag. -/
inductive Flag
  /-- More is said about what goes on. -/
  | verbose
  /-- The configuration file. -/
  | config
  /-- How the report is shown. -/
  | format
  /-- The names or codes of the checks to run. -/
  | sniffs
  /-- A pattern of paths that are left out; it may be given more than once. -/
  | exclude
  /-- An existing file is replaced. -/
  | force
  /-- How the program is used. -/
  | help
  /-- Which version it is. -/
  | version
  deriving DecidableEq, Repr

namespace Flag

/-- The long name of a flag. -/
def name : Flag → String
  | verbose => "verbose"
  | config => "config"
  | format => "format"
  | sniffs => "sniffs"
  | exclude => "exclude"
  | force => "force"
  | help => "help"
  | version => "version"

/-- The letter of a flag. -/
def letter? : Flag → Option Char
  | verbose => some 'v'
  | config => some 'c'
  | format => some 'f'
  | exclude => some 'e'
  | help => some 'h'
  | version => some 'V'
  | _ => none

/-- The flag takes a value. -/
def takesValue : Flag → Bool
  | config => true
  | format => true
  | sniffs => true
  | exclude => true
  | _ => false

/-- The flags that a command knows, or those that may stand before the command, in the order in which
they are explained. -/
def known : Option Verb → List Flag
  | none => [verbose, config, help, version]
  | some .check => [format, verbose, config, sniffs, exclude, help]
  | some .init => [force, verbose, config, help]
  | some _ => [verbose, config, help]

/-- The known flag of a long name. -/
def named? (verb : Option Verb) (t : Text) : Option Flag :=
  (known verb).find? fun f => f.name.toList == t

/-- The known flag of a letter. -/
def lettered? (verb : Option Verb) (c : Char) : Option Flag :=
  (known verb).find? fun f => f.letter? == some c

/-- The variable that stands in for the configuration file's flag. -/
def configVariable : String := "PHP_STANDARDS_CONFIG"

end Flag

end PhpLint.CommandLine
