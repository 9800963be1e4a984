import PhpLint.CommandLine.Arguments

/-!
# Help

What the program says about its use: a line on what it does, how its arguments are written, and
sections on commands, arguments and flags.  At length, every explanation has a paragraph of its own
below what it explains, and the choices of a value are explained too.
-/

namespace PhpLint.CommandLine

/-- Something that is explained. -/
structure Entry where
  /-- How it is written. -/
  written : String
  about : String
  /-- What else there is to say about its value. -/
  notes : List String := []
  /-- The values that there are, and what they mean. -/
  choices : List (String × String) := []

/-- A text filled up with blanks. -/
def padded (width : Nat) (s : String) : String :=
  s ++ String.ofList (List.replicate (width - s.length) ' ')

namespace Entry

/-- The list of the choices of a value. -/
def choiceNote (e : Entry) : List String :=
  if e.choices.isEmpty then []
  else ["[possible values: " ++ String.intercalate ", " (e.choices.map Prod.fst) ++ "]"]

/-- The entry on one line; what is explained takes a number of columns. -/
def line (width : Nat) (e : Entry) : String :=
  "  " ++ padded width e.written ++ "  " ++
    String.intercalate " " (e.about :: e.notes ++ e.choiceNote) ++ "\n"

/-- The start of the lines of a paragraph. -/
def indent : String := "          "

/-- The choices of a value with their meanings. -/
def choiceLines (e : Entry) : String :=
  let width := (e.choices.map fun c => c.1.length).foldl max 0
  if e.choices.isEmpty then ""
  else
    "\n" ++ indent ++ "Possible values:\n" ++
      String.join (e.choices.map fun (name, about) =>
        indent ++ "- " ++ padded (width + 2) (name ++ ":") ++ about ++ "\n")

/-- The entry as a paragraph. -/
def paragraph (e : Entry) : String :=
  let notes := if e.notes.isEmpty then [] else "" :: e.notes
  "  " ++ e.written ++ "\n" ++
    String.join ((e.about :: notes).map fun l => indent ++ l ++ "\n") ++ e.choiceLines

/-- Entries under a title. -/
def sectionText (long : Bool) (title : String) (entries : List Entry) : String :=
  if entries.isEmpty then ""
  else if long then
    s!"\n{title}:\n" ++ String.intercalate "\n" (entries.map paragraph)
  else
    let width := (entries.map fun e => e.written.length).foldl max 0
    s!"\n{title}:\n" ++ String.join (entries.map (line width))

end Entry

/-- What a command does. -/
def Verb.about : Verb → String
  | check => "Run the sniffs over PHP files"
  | listSniffs => "List available sniffs"
  | listExtensions => "List the configured return type extensions"
  | init => "Initialize configuration file"

/-- What a format is. -/
def formatAbout : OutputFormat → String
  | .text => "Human-readable text output"
  | .json => "JSON output"
  | .compact => "One-line-per-violation compact format"
  | .pretty => "Source snippets rendered with miette"

/-- The page has something to say at length. -/
def Topic.hasMore : Topic → Bool
  | command .check => true
  | _ => false

namespace Flag

/-- How the value of a flag is called. -/
def valueName : Flag → String
  | config => " <CONFIG>"
  | format => " <FORMAT>"
  | sniffs => " <SNIFFS>"
  | exclude => " <EXCLUDE>"
  | _ => ""

/-- How a flag is written.  Where there is no letter, its place stays empty. -/
def written (f : Flag) : String :=
  let letter := match f.letter? with
    | some c => s!"-{c}, "
    | none => "    "
  letter ++ "--" ++ f.name ++ f.valueName

/-- What a flag does. -/
def about (topic : Topic) (long : Bool) : Flag → String
  | verbose => "Enable verbose output"
  | config => "Path to configuration file"
  | format => "Output format"
  | sniffs => "Only run specific sniffs, by name or code (comma-separated)"
  | exclude => "Exclude patterns (can be specified multiple times)"
  | force => "Overwrite existing config"
  | help =>
    if !topic.hasMore then "Print help"
    else if long then "Print help (see a summary with '-h')"
    else "Print help (see more with '--help')"
  | version => "Print version"

/-- The entry of a flag; the fallback of the configuration file is shown. -/
def entry (topic : Topic) (long : Bool) (fallback : Option Text) (f : Flag) : Entry where
  written := f.written
  about := f.about topic long
  notes := match f with
    | config => [s!"[env: {configVariable}={String.ofList (fallback.getD [])}]"]
    | format => [s!"[default: {OutputFormat.text.name}]"]
    | _ => []
  choices := match f with
    | format => OutputFormat.all.map fun o => (o.name, formatAbout o)
    | _ => []

end Flag

namespace Topic

/-- What the topic's command does. -/
def about : Topic → String
  | program => "Coding-standard checks for PHP projects"
  | command v => v.about
  | help => "Print this message or the help of the given subcommand(s)"

/-- How the arguments are written. -/
def usage : Topic → String
  | program => "php-standards [OPTIONS] <COMMAND>"
  | command v => s!"php-standards {v.name} [OPTIONS]" ++ if v.takesPath then " [PATH]" else ""
  | help => "php-standards help [COMMAND]..."

/-- The commands that are explained. -/
def commands : Topic → List Entry
  | program => Verb.all.map (fun v => ⟨v.name, v.about, [], []⟩) ++ [⟨"help", help.about, [], []⟩]
  | _ => []

/-- The arguments that are explained. -/
def arguments : Topic → List Entry
  | command .check =>
    [⟨"[PATH]", "File or directory to analyze (default: current directory)", ["[default: .]"], []⟩]
  | command .listExtensions =>
    [⟨"[PATH]", "Project directory used to find the config file", ["[default: .]"], []⟩]
  | help => [⟨"[COMMAND]...", "Print help for the subcommand(s)", [], []⟩]
  | _ => []

/-- The flags that are explained. -/
def flags : Topic → List Flag
  | program => Flag.known none
  | command v => Flag.known (some v)
  | help => []

/-- The page about a topic. -/
def page (topic : Topic) (long : Bool) (fallback : Option Text) : String :=
  let long := long && topic.hasMore
  topic.about ++ "\n\nUsage: " ++ topic.usage ++ "\n" ++
    Entry.sectionText false "Commands" topic.commands ++
    Entry.sectionText long "Arguments" topic.arguments ++
    Entry.sectionText long "Options" (topic.flags.map (Flag.entry topic long fallback))

end Topic

/-- The version of the program. -/
def versionText : String := "php-standards 0.3.0\n"

end PhpLint.CommandLine
