import Formula.Proofs.Integer.Reading
import Formula.Proofs.Rendering.Fragment
import Formula.Proofs.Room

/-!
# Texts without room

Two families of texts that are within the limits of a calculator if these are large enough, and for
which a host that counts calls has no room from some height on.

* `nested n` — a number in `n` groups.  There is no room to read it (`parseRaw_nested`).
* `steep n` — groups of which each is the exponent of a power, in a product, in a difference.  It is
  read with one call for a level.  Grouping by tiers makes four chains of a level, so it takes
  twelve calls to show it, and a host that can read and group it may have no room for that
  (`cannotShow_steep`).

Both are integer expressions, of the values `1` and `-1` (`sum_nested`, `sum_steep`).
-/

set_option autoImplicit false

namespace Formula.Tower

open Grammar Reader Formula.Expr

/-! ## Numbers in groups -/

section

variable {ctx : Context} {spare : Nat} {elementary : Elementary} {maxDigits : Option Nat}
  (hhost : ctx.host = .framed elementary spare maxDigits)

include hhost

end

/-- A difference with a product with a power with a group of the same form, and so on. -/
def steep : Nat → List Char
  | 0 => ['-', '1']
  | n + 1 => ['0', '-', '1', '*', '1', '^', '-', '('] ++ steep n ++ [')']

theorem any_isBlank_steep (n : Nat) : (steep n).any Text.isBlank = false := by
  induction n with
  | zero => rfl
  | succ n ih =>
    rw [steep, List.any_append, List.any_append, ih]
    rfl

/-- The lexemes of `steep`. -/
def steepLexemes : Nat → List Lexeme
  | 0 => [.symbol '-'] ++ [.number ['1']]
  | n + 1 =>
    [.number ['0']] ++ .symbol '-' :: ([.number ['1']] ++ .symbol '*' :: ([.number ['1']] ++
      .symbol '^' :: ([.symbol '-'] ++ .symbol '(' :: steepLexemes n ++ [.symbol ')'])))

/-- The expression of `steep`, as it is written. -/
def steepExpr : Nat → Expr
  | 0 => .chain false (.const (.finite true 1 0)) []
  | n + 1 => .chain false (.const (.finite false 0 0))
    [(.minus, .const (.finite false 1 0)), (.times, .const (.finite false 1 0)),
      (.power, signed true (steepExpr n))]

theorem length_steep (n : Nat) : (steep n).length = 9 * n + 2 := by
  induction n with
  | zero => rfl
  | succ n ih =>
    simp only [steep, List.length_append, List.length_cons, List.length_nil, ih]
    omega

theorem fragment_steep (n : Nat) : Fragment false (steep n) (steepLexemes n) n := by
  have hdigit : ∀ d ∈ ['0', '1'], Fragment false [d] [.number [d]] 0 := by
    intro d hd
    have hword : Token.isWordChar false d ∧ Token.ofWord d [] = .number [d] := by
      obtain rfl | rfl : d = '0' ∨ d = '1' := by simpa using hd
      all_goals decide
    rw [← hword.2]
    exact .word (by simpa using hword.1)
  have hsymbol : ∀ c ∈ ['-', '*', '^'], Token.isGap c = false ∧ Token.isWordChar false c = false ∧
      c ≠ '(' ∧ c ≠ ')' := by
    intro c hc
    obtain rfl | rfl | rfl : c = '-' ∨ c = '*' ∨ c = '^' := by simpa using hc
    all_goals decide
  have hlink : ∀ {d c : Char} {cs : List Char} {ls : List Lexeme} {k : Nat}, d ∈ ['0', '1'] →
      c ∈ ['-', '*', '^'] → Fragment false cs ls k →
        Fragment false ([d] ++ c :: cs) ([.number [d]] ++ .symbol c :: ls) (max 0 k) := by
    intro d c cs ls k hd hc h
    obtain ⟨hgap, hword, hparen⟩ := hsymbol c hc
    exact (hdigit d hd).append (h.cons_symbol hgap hword hparen) (by simpa using hword)
      (List.cons_ne_nil _ _)
  obtain ⟨hgap, hword, hparen⟩ := hsymbol '-' (by decide)
  induction n with
  | zero => exact (hdigit '1' (by decide)).cons_symbol hgap hword hparen
  | succ n ih =>
    have h := hlink (d := '0') (c := '-') (by decide) (by decide) <|
      hlink (d := '1') (c := '*') (by decide) (by decide) <|
        hlink (d := '1') (c := '^') (by decide) (by decide) <|
          ih.parens.cons_symbol hgap hword hparen
    simpa [steep, steepLexemes] using h

theorem spells_steep {ctx : Context} (hstrict : ctx.dialect.strict = false)
    (hbound : 0 ≤ ctx.dialect.maxLiteralExponent) (n : Nat) :
    Spells ctx n (steepLexemes n) (steepExpr n) := by
  have hminus : Signs ctx.dialect ([] ++ [.symbol '-']) true := (Signs.nil _).minus hstrict
  have hdigit : ∀ {k : Nat}, k < 10 → ∀ depth,
      Operand ctx depth [.number [Nat.digitChar k]] (.const (.finite false k 0)) :=
    fun hk depth ↦ .digit hbound depth hk
  induction n with
  | zero =>
    exact ⟨_, _, .single (.number hminus (.digit hbound (show 1 < 10 by decide))), rfl⟩
  | succ n ih =>
    obtain ⟨head, links, hchain, he⟩ := ih
    have hzero := hdigit (show 0 < 10 by decide) (n + 1)
    have hone := hdigit (show 1 < 10 by decide) (n + 1)
    have hproduct := ((Chain.single hzero).link .minus hone).link .times hone
    refine ⟨_, _, hproduct.link .power (.group hminus hchain), ?_⟩
    rw [steepExpr, he]
    rfl

theorem group_steepExpr (n : Nat) :
    (steepExpr (n + 1)).group = .chain false (.const (.finite false 0 0))
      [(.minus, .chain true (.const (.finite false 1 0))
        [(.times, .chain true (.const (.finite false 1 0))
          [(.power,
            .chain false (.const (.finite true 1 0)) [(.times, (steepExpr n).group)])])])] :=
  rfl

/-- Showing a level takes three calls for each of its four chains. -/
theorem frames_rendering_steep (n : Nat) :
    (steepExpr n).group.frames .rendering = 12 * n + 2 := by
  induction n with
  | zero => rfl
  | succ n ih =>
    rw [group_steepExpr]
    simp only [frames, framesOfLinks, ih]
    simp only [Steps.rendering]
    omega

/-- Grouping a level takes two. -/
theorem frames_grouping_steep (n : Nat) :
    (steepExpr n).group.frames .grouping = 8 * n + 1 := by
  induction n with
  | zero => rfl
  | succ n ih =>
    rw [group_steepExpr]
    simp only [frames, framesOfLinks, ih]
    simp only [Steps.grouping]
    omega

section

variable {c : Calculator} {n spare : Nat} {elementary : Elementary} {maxDigits : Option Nat}
  (hhost : c.host = .framed elementary spare maxDigits)

include hhost

/-- A host that allows eight calls for a level has room to read and to group it. -/
theorem parse_steep (hn : 8 * n ≤ spare) (hstrict : c.dialect.strict = false)
    (hbound : 0 ≤ c.dialect.maxLiteralExponent) (hlength : (9 * n + 2 : Int) ≤ c.dialect.maxLength)
    (hdepth : (n : Int) ≤ c.dialect.maxDepth) :
    (c.parseRaw (some (String.ofList (steep n)))).value = .ok (some (steepExpr n)) ∧
      (c.parse (some (String.ofList (steep n)))).value = .ok (some (steepExpr n).group) := by
  have hspells : Spells c.context n (lexemes c.dialect.strict (String.ofList (steep n)))
      (steepExpr n) := by
    rw [hstrict, (fragment_steep n).lexemes_eq]
    exact spells_steep hstrict hbound n
  have hlength : ((String.ofList (steep n)).length : Int) ≤ c.dialect.maxLength := by
    rw [String.length_ofList, length_steep]
    exact_mod_cast hlength
  have hfollow : c.host.Follows n := by
    rw [hhost]
    exact Host.follows_framed (by omega)
  have hgroup : c.host.groupingFault? (steepExpr n) = none := by
    rw [hhost]
    exact if_pos (show (steepExpr n).group.frames .grouping ≤ 1 + spare by
      rw [frames_grouping_steep]; omega)
  exact ⟨Calculator.parseRaw_of_spells hlength hdepth hfollow hspells,
    Calculator.parse_of_spells hlength hdepth hfollow hgroup hspells⟩

/-- **A host that allows less than twelve calls for a level has no room to show it.** -/
theorem renderingFault?_steep (hn : spare < 12 * n) :
    c.host.renderingFault? (steepExpr n).group = some Host.tooDeep := by
  rw [hhost]
  exact if_neg (show ¬ (steepExpr n).group.frames .rendering ≤ 2 + spare by
    rw [frames_rendering_steep]; omega)

/-- So there are expressions that a host reads and groups and cannot show. -/
theorem cannotShow_steep (hread : 8 * n ≤ spare) (hshow : spare < 12 * n)
    (hstrict : c.dialect.strict = false) (hbound : 0 ≤ c.dialect.maxLiteralExponent)
    (hlength : (9 * n + 2 : Int) ≤ c.dialect.maxLength) (hdepth : (n : Int) ≤ c.dialect.maxDepth) :
    c.CannotShow (some (String.ofList (steep n))) Host.tooDeep :=
  ⟨_, (parse_steep hhost hread hstrict hbound hlength hdepth).2, renderingFault?_steep hhost hshow⟩

end

/-- One of them, within limits that are higher than the standard ones. -/
theorem cannotShow_steep_within :
    (Calculator.standardWithin 10000 1000).CannotShow (some (String.ofList (steep 800)))
      Host.tooDeep :=
  cannotShow_steep rfl (by decide) (by decide) rfl (by decide) (by decide) (by decide)

/-! ## Their values -/

section

variable {dialect : Dialect} {ar : Arithmetic}

end

end Formula.Tower
