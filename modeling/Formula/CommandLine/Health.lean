import Formula.Calculator

/-!
# The health check

The program can check itself: it calculates a few expressions of which the output is known, each
with a calculator of its own.  The check fails if one of the outputs is another, which happens when
the limits of the settings are too low for the expressions.

* `checks` — the expressions with their outputs.
* `Check.run` — the output of one of them.
* `health` — the lines that are printed, and whether all went well.
-/

set_option autoImplicit false

namespace Formula.CommandLine

open Log

/-- An expression of which the output is known. -/
structure Check where
  label : String
  expression : String
  scale : Nat
  expected : String

/-- The expressions that are checked. -/
def checks : List Check :=
  [⟨"Basic arithmetic", "1 + 2 * 3", 10, "7"⟩,
   ⟨"Division rounding", "10 / 3", 3, "3.333"⟩,
   ⟨"Division by zero", "1 / 0", 10, "#DIV0"⟩,
   ⟨"Syntax errors", "(1 + 2", 10, "#SYNTAXERROR"⟩,
   ⟨"Functions", "IF(1, RounD(Sin(5), 2), 0)", 10, "-0.96"⟩]

namespace Check

/-- The output of an expression.  The scale of a check is always one. -/
def run (settings : Settings) (host : Host) (c : Check) :
    Logged (Except Calculator.Escape String) :=
  match Calculator.standard settings host (.integer c.scale) false with
  | .ok calculator => calculator.calculate (some c.expression)
  | .error e => .quiet (.ok e.message)

/-- The line about an output. -/
def line (c : Check) (output : String) : String :=
  if output = c.expected then s!"[OK] {c.label} works"
  else s!"[FAIL] {c.label}: expected {c.expected}, got {output}"

end Check

/-- What a health check ends with. -/
structure Health where
  lines : List String
  passed : Bool

/-- The line between the parts of the report. -/
def ruler : String := String.ofList (List.replicate 50 '-')

/-- The report on the outputs of the checks. -/
def Health.ofOutputs (outputs : List (Check × String)) : Health :=
  let passed := outputs.countP fun (c, output) ↦ output = c.expected
  let failed := outputs.length - passed
  let verdict :=
    if failed = 0 then "[OK] All health checks passed!"
    else "[WARN] Some health checks failed. Core functionality may be impaired."
  { lines :=
      ["Running SheetCalc health check...", ruler] ++
      (outputs.map fun (c, output) ↦ c.line output) ++
      [ruler, s!"Results: {Digits.natText passed} passed, {Digits.natText failed} failed", "",
        verdict]
    passed := failed = 0 }

/-- Calculates a list of expressions, one after the other. -/
def runChecks (settings : Settings) (host : Host) :
    List Check → Logged (Except Calculator.Escape (List (Check × String)))
  | [] => .quiet (.ok [])
  | c :: rest =>
    let first := c.run settings host
    let others := runChecks settings host rest
    ⟨first.records ++ others.records, do return (c, ← first.value) :: (← others.value)⟩

/-- The health check. -/
def health (settings : Settings) (host : Host) :
    Logged (Except Calculator.Escape Health) :=
  (runChecks settings host checks).map (Except.map Health.ofOutputs)

end Formula.CommandLine
