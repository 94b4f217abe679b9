import Formula.Arithmetic
import Formula.Text.Integer
import Formula.Text.Quoted

/-!
# Settings

The defaults and the limits of the calculator can be changed through variables of the environment.
`Settings` holds them, `Settings.read` takes them from an environment: a variable that is not set
leaves the default, and one that is set has to be a whole number.  The variables are read in a fixed
order (`Settings.read`), and the first that is not a whole number is reported.

`Settings.arithmetic` is the arithmetic under the given limits.
-/

set_option autoImplicit false

namespace Formula

/-- The defaults and the limits of the calculator. -/
structure Settings where
  /-- The scale of a calculator that is not given one. -/
  defaultScale : Int := 10
  /-- The number of characters that an expression may have. -/
  maxInputLength : Int := 10000
  /-- The number of levels that groups and calls may be nested. -/
  maxNestingDepth : Int := 100
  maxExactExponent : Int := 10000
  maxResultDigits : Int := 100000
  maxRoundingDigits : Int := 1000
  /-- The bound for the exponents of number literals. -/
  maxLiteralExponent : Int := 10000
  /-- The severity from which on records are logged, by name. -/
  logLevel : String := "WARNING"
deriving DecidableEq

namespace Settings

/-- The settings of an environment in which no variable is set. -/
def standard : Settings where

/-- The version of the calculator. -/
def version : String := "1.0.0"

/-- The name of a variable of the environment. -/
def variableName (setting : String) : String := "SHEETCALC_" ++ setting

/-- The variables of the environment that are read. -/
def variableNames : List String :=
  ["DEFAULT_SCALE", "MAX_INPUT_LENGTH", "MAX_NESTING_DEPTH", "MAX_EXACT_EXPONENT",
   "MAX_RESULT_DIGITS", "MAX_ROUNDING_DIGITS", "MAX_LITERAL_EXPONENT", "LOG_LEVEL"].map variableName

/-- The settings of an environment, where numbers have at most `maxDigits` digits. -/
def read (maxDigits : Option Nat) (environment : String → Option String) :
    Except Text.IntegerFault Settings := do
  let number (setting : String) (default : Int) : Except Text.IntegerFault Int :=
    match environment (variableName setting) with
    | some text => Text.readInt maxDigits text.toList
    | none => .ok default
  return {
    defaultScale := ← number "DEFAULT_SCALE" standard.defaultScale
    maxInputLength := ← number "MAX_INPUT_LENGTH" standard.maxInputLength
    maxNestingDepth := ← number "MAX_NESTING_DEPTH" standard.maxNestingDepth
    maxExactExponent := ← number "MAX_EXACT_EXPONENT" standard.maxExactExponent
    maxResultDigits := ← number "MAX_RESULT_DIGITS" standard.maxResultDigits
    maxRoundingDigits := ← number "MAX_ROUNDING_DIGITS" standard.maxRoundingDigits
    maxLiteralExponent := ← number "MAX_LITERAL_EXPONENT" standard.maxLiteralExponent
    logLevel := (environment (variableName "LOG_LEVEL")).getD standard.logLevel }

-- Without variables the settings are the standard ones.
example (maxDigits : Option Nat) : read maxDigits (fun _ ↦ none) = .ok standard := rfl

/-- The arithmetic under the limits of the settings, on a given machine. -/
def arithmetic (s : Settings) (elementary : Elementary) : Arithmetic where
  maxExactExponent := s.maxExactExponent
  maxResultDigits := s.maxResultDigits
  maxRoundingDigits := s.maxRoundingDigits
  elementary := elementary

end Settings

end Formula
