import Formula.Decimal.Plain
import Formula.Expr.Basic

/-!
# The text of an expression

An expression is shown as it would be written: chains in parentheses, introduced chains in braces,
one space on either side of an operator, arguments separated by a comma and a space, constants in
plain notation and functions under the name that they were registered with.

`renderLinks_append`, `renderLinks_eq_flatMap`, `renderArguments_cons` — the text of a chain or a
call is put together from the texts of its parts.
-/

set_option autoImplicit false

namespace Formula.Expr

mutual

/-- The text of an expression. -/
def render : Expr → List Char
  | const d => d.plain
  | chain introduced head links =>
    (if introduced then '\x7b' else '(') :: (render head ++
      (renderLinks links ++ [if introduced then '\x7d' else ')']))
  | call name _ arguments => name.toList ++ '(' :: (renderArguments arguments ++ [')'])

/-- The text of the links of a chain. -/
def renderLinks : List (Operator × Expr) → List Char
  | [] => []
  | (op, e) :: rest => ' ' :: op.symbol :: ' ' :: (render e ++ renderLinks rest)

/-- The text of the arguments of a call. -/
def renderArguments : List Expr → List Char
  | [] => []
  | [e] => render e
  | e :: rest => render e ++ ',' :: ' ' :: renderArguments rest

end

theorem renderLinks_append (ls ms : List Link) :
    renderLinks (ls ++ ms) = renderLinks ls ++ renderLinks ms := by
  induction ls with
  | nil => rfl
  | cons l ls ih =>
    obtain ⟨op, e⟩ := l
    simp [renderLinks, ih]

theorem renderLinks_eq_flatMap (links : List Link) :
    renderLinks links = links.flatMap fun l ↦ ' ' :: l.1.symbol :: ' ' :: render l.2 := by
  induction links with
  | nil => rfl
  | cons l links ih =>
    obtain ⟨op, e⟩ := l
    simp [renderLinks, ih]

theorem renderArguments_cons (e : Expr) (es : List Expr) :
    renderArguments (e :: es) = render e ++ es.flatMap fun e ↦ ',' :: ' ' :: render e := by
  induction es generalizing e with
  | nil => simp [renderArguments]
  | cons e' es ih => simp [renderArguments, ih]

/-- The text of an expression as a string. -/
def text (e : Expr) : String := String.ofList e.render

end Formula.Expr
