import Formula.CommandLine.Arguments

/-!
# What the command line says about itself

* `usageLines` — the options at a glance.
* `helpLines` — the same, followed by a description of each option.
* `errorLines` — the same, followed by what is wrong with the command line.
-/

set_option autoImplicit false

namespace Formula.CommandLine

/-- The name of the program. -/
def program : String := "sheetcalc"

/-- The options at a glance. -/
def usageLines : List String :=
  ["usage: sheetcalc [-h] [-e EVAL_EXPR] [--format \x7bjson,human\x7d] [-s SCALE]",
   "                 [--strict] [--tree] [-v]",
   "                 [--log-level \x7bDEBUG,INFO,WARNING,ERROR\x7d]",
   "                 [--log-file LOG_FILE] [--health-check]"]

/-- The line about the scale that a calculator has without the option. -/
def defaultLine (scale : Int) : String :=
  s!"                        (default: {Digits.intText scale})"

/-- The options and what they are for.  `scale` is the scale without the option. -/
def helpLines (scale : Int) : List String :=
  usageLines ++
  ["",
   "options:",
   "  -h, --help            show this help message and exit",
   "  -e EVAL_EXPR, --eval EVAL_EXPR",
   "                        Evaluate one expression and exit (non-interactive)",
   "  --format \x7bjson,human\x7d",
   "                        Output format: json (machine-readable) or human",
   "                        (human-readable)",
   "  -s SCALE, --scale SCALE",
   "                        Maximum fractional digits for inexact results",
   defaultLine scale,
   "  --strict              Only accept unsigned integers, parentheses and",
   "                        operators",
   "  --tree                Also print the parsed expression tree",
   "  -v, --version         Show program version",
   "  --log-level \x7bDEBUG,INFO,WARNING,ERROR\x7d",
   "                        Set logging level",
   "  --log-file LOG_FILE   Write logs to file",
   "  --health-check        Run health check and verify core operations"]

/-- What is wrong with a command line. -/
def errorLines (e : UsageError) : List String :=
  usageLines ++ [s!"{program}: error: {e.message}"]

end Formula.CommandLine
