import PhpLint.Text

/-!
# The configuration to start with

A project that has no configuration can be given this one.  It says what is the case anyway and names
the settings that there are.
-/

namespace PhpLint.Config

/-- The lines of the configuration to start with. -/
def templateLines : List String :=
  ["# php-standards configuration",
   "",
   "# Sniff preset: \"standard\" (all sniffs) or \"minimal\" (strict-declaration only)",
   "preset = \"standard\"",
   "",
   "# Lowest severity that makes `check` exit with status 1",
   "# fail_on = \"error\"",
   "",
   "[analyzer]",
   "# Root directory to analyze (default: current directory)",
   "# root = \"./src\"",
   "",
   "# Glob patterns to exclude from analysis",
   "exclude = [",
   "    \"**/vendor/**\",",
   "    \"**/node_modules/**\",",
   "]",
   "",
   "# File extensions to analyze",
   "extensions = [\"php\"]",
   "",
   "# Respect .gitignore files",
   "respect_gitignore = true",
   "",
   "# Sniff configurations",
   "# Each sniff can be enabled/disabled and have its severity overridden",
   "",
   "[rules.strict-declaration]",
   "enabled = true",
   "",
   "[rules.function-comment]",
   "enabled = true",
   "# Base classes whose test* methods need no doc comment",
   "test_classes = [\"PHPUnit_Framework_TestCase\", \"PHPUnit\\\\Framework\\\\TestCase\"]",
   "",
   "[rules.doc-comment-spacing]",
   "lines_before_first_content = 0",
   "lines_between_description_and_annotations = 1",
   "lines_between_different_annotations = 1",
   "lines_between_same_annotations = 0",
   "lines_after_last_content = 0",
   "",
   "[rules.forbidden-array-trailing-comma]",
   "enabled = true",
   "",
   "[rules.yoda-condition]",
   "# \"require\" puts literals on the left, \"disallow\" on the right",
   "style = \"require\"",
   "# severity = \"warning\"  # Override default severity",
   "",
   "# Factory methods whose return type is the class named in an argument",
   "# [[factory_methods]]",
   "# class = \"App\\\\Builder\\\\ObjectBuilderInterface\"",
   "# methods = [\"build\", \"buildWithContext\"]",
   "# argument = 0"]

/-- The configuration to start with, as the text of its file. -/
def template : String := String.join (templateLines.map (· ++ "\n"))

end PhpLint.Config
