import PhpLint.Analyzer
import PhpLint.CommandLine.Usage
import PhpLint.Config.Source
import PhpLint.Config.Template
import PhpLint.Extension.Registry
import PhpLint.Preset

/-!
# Runs of the program

A run takes the arguments and what it finds around it, and has an outcome: a status, what is printed,
and a file that may be written.  The status is 1 when a command fails or when a check finds a
violation that reaches the threshold, and 2 when the arguments make no sense.
-/

namespace PhpLint.CommandLine

/-- The outcome of a run. -/
structure Outcome where
  /-- The status with which the program ends. -/
  status : Nat := 0
  /-- What is printed. -/
  output : String := ""
  /-- What is printed about a failure. -/
  failure : String := ""
  /-- The file that is written, and its text. -/
  written : Option (FilePath × String) := none
  deriving DecidableEq, Repr

namespace Outcome

/-- A command that fails. -/
def failed (message : String) : Outcome := { status := 1, failure := s!"Error: {message}\n" }

/-- A command that prints something. -/
def printed (output : String) : Outcome := { output }

end Outcome

/-- The checks that a filter names by their names or codes, whatever the preset is; without a filter
those that the configuration asks for. -/
def chosenSniffs (config : Config) : Option Text → List Sniff
  | none => config.sniffs
  | some filter =>
    let names := (Text.splitOn ',' filter).map Text.trim
    (Preset.standard.sniffs config).filter fun sniff =>
      names.contains sniff.name.toList || names.contains sniff.code.toList

/-- The outcome of checking what a path leads to. -/
def check (w : Workspace) (source : ConfigSource) (path : FilePath) (format : OutputFormat)
    (filter : Option Text) (exclusions : List Text) : Outcome :=
  match source.load? w with
  | none =>
    .failed ("Failed to load config: " ++ (source.path?.map FilePath.toString).getD "")
  | some config =>
    match Analyzer.build w.current (some path) (chosenSniffs config filter) exclusions config false
    with
    | .error _ => .failed "Failed to build analyzer"
    | .ok analyzer =>
      match analyzer.run w.tree with
      | .error _ => .failed "Analysis failed"
      | .ok report =>
        let source? (file : FilePath) := w.text? ((analyzer.base w.tree).join file)
        { status := if report.reaches config.threshold then 1 else 0
          output := report.shown format source? }

/-- A row of the table of checks. -/
def sniffRow (code name description : String) : String :=
  padded 8 code ++ " " ++ padded 32 name ++ " " ++ description ++ "\n"

/-- The table of all checks, and how to choose some of them. -/
def sniffTable : String :=
  "Available sniffs:\n\n" ++ sniffRow "Code" "Name" "Description" ++
    String.ofList (List.replicate 90 '-') ++ "\n" ++
    String.join ((Preset.standard.sniffs {}).map fun s => sniffRow s.code s.name s.description) ++
    "\nPresets:\n" ++
    "  standard  - PS001 to PS005 (default)\n" ++
    "  minimal   - PS001 only (for gradual adoption)\n" ++
    "\nUse --sniffs to run specific sniffs, e.g.:\n" ++
    "  php-standards check --sniffs strict-declaration,yoda-condition\n" ++
    "  php-standards check --sniffs PS001,PS004\n"

/-- The outcome of listing the extensions of a configuration. -/
def listExtensions (w : Workspace) (source : ConfigSource) : Outcome :=
  match source.path? with
  | none => .printed "No configuration file found; no extensions registered.\n"
  | some p =>
    match (w.text? p).map Registry.ofText with
    | some (.ok registry) =>
      if registry.extensions.isEmpty then
        .printed s!"No [[factory_methods]] entries in {p.toString}\n"
      else
        .printed <| s!"Return type extensions from {p.toString}:\n\n" ++
          String.join (registry.extensions.map fun e => s!"  {String.ofList e.summary}\n")
    | _ => .failed s!"Failed to load extensions from {p.toString}"

/-- The name of the configuration file that is written. -/
def configName : String := "php-standards.toml"

/-- The outcome of writing a configuration to start with.  A file that is there is replaced only by
force, a directory never. -/
def init (w : Workspace) (force : Bool) : Outcome :=
  let p := FilePath.ofString configName
  if w.holds p && !force then
    .failed s!"Configuration file already exists at {configName}. Use --force to overwrite."
  else if w.holds p && !w.hasFile p then .failed "Is a directory (os error 21)"
  else
    { output :=
        s!"Created {configName}\n\nNext steps:\n  1. Edit {configName} to configure sniffs\n" ++
          "  2. Run: php-standards check\n"
      written := some (p, Config.template) }

/-- The outcome of what arguments ask for. -/
def Invocation.run (i : Invocation) (w : Workspace) : Outcome :=
  match i.command with
  | .check path format filter exclusions =>
    check w (.find w (ConfigSource.startOf w path) i.config) path format filter exclusions
  | .listSniffs => .printed sniffTable
  | .listExtensions path => listExtensions w (.find w path i.config)
  | .init force => init w force

/-- The outcome when no command is run. -/
def Stop.outcome (fallback : Option Text) : Stop → Outcome
  | .mistake e => { status := 2, failure := s!"error: {e.message}\n" }
  | .help topic long => .printed (topic.page long fallback)
  | .version => .printed versionText

/-- The outcome of a run of the program. -/
def run (w : Workspace) (arguments : List Text) : Outcome :=
  let fallback := w.lookup? Flag.configVariable
  match Invocation.ofArguments fallback arguments with
  | .ok i => i.run w
  | .error stop => stop.outcome fallback

/-- What a run leaves behind. -/
def Outcome.apply (o : Outcome) (w : Workspace) : Workspace :=
  match o.written with
  | none => w
  | some (p, text) =>
    match (w.names? (.ofString ".")) with
    | some names =>
      let content := FileTree.file (Utf8.encode text.toList)
      { w with tree := FileTree.insert content (names ++ [p.text]) w.tree }
    | none => w

end PhpLint.CommandLine
