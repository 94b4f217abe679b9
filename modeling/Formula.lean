import Formula.Function.Catalogue
import Formula.Main
import Formula.Proofs.Precedence
import Formula.Proofs.Rendering.Calculate
import Formula.Session
import Formula.Proofs.Grouping
import Formula.Proofs.Grouping.Inline
import Formula.Proofs.Numeric.Whole
import Formula.Proofs.Integer
import Formula.Proofs.Integer.Reading
import Formula.Proofs.Integer.Calculate
import Formula.Proofs.Grammar.Counted
import Formula.Proofs.Outcome
import Formula.Proofs.Answer
import Formula.Proofs.Rendering.Numeral
import Formula.Proofs.Outcome.Standard
import Formula.Proofs.Outcome.Output
import Formula.Proofs.Registry.History
import Formula.Proofs.Session
import Formula.Proofs.Grammar.Strict
import Formula.Proofs.Binding
import Formula.Proofs.Outcome.Agreement
import Formula.Proofs.Session.Kept
import Formula.Proofs.Session.Usable
import Formula.Proofs.Numeric.DivisionByZero
import Formula.Proofs.Numeric.Power
import Formula.Proofs.Shell
import Formula.Proofs.Numeric.FloatingPoint
import Formula.Proofs.Outcome.Unexpected
import Formula.Proofs.Neutral
import Formula.Proofs.Position
import Formula.Proofs.Scale
import Formula.Proofs.Grammar.Continuation
import Formula.Proofs.Grammar.Descent.Outcome
import Formula.Proofs.Numeric.PowerSize
import Formula.Proofs.Rendering.Reentry
import Formula.Proofs.Grammar.Report
import Formula.Proofs.Shell.Reaction
import Formula.Proofs.Numeric.Integral
import Formula.Proofs.Registry.Call
