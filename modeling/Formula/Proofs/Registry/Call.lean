import Formula.Function.Catalogue
import Formula.Proofs.Calculator
import Formula.Proofs.Grammar.Nesting
import Formula.Proofs.Grouping
import Formula.Proofs.Registry.Spelling

/-!
# Calls of registered functions

Whatever has been registered can be called: the name, in any letter case, and then as many arguments
as the function has, in parentheses and with commas between them.  An argument is any text that is
an expression by itself; it may have commas, calls and signs of its own.

* `callText` — the text of a call.
* `Expr.unwrapped` — an argument as a call holds it: a single operand needs no chain around it.
* `lexemes_callText` — the lexemes of a call are those of the name and of the arguments, each of
  which is cut into tokens as if it stood alone.
* `Arguments.append` — more arguments for a call.
* `Spells.callText` — the grammar derives the text of a call.
* `Registry.spelling_agrees` — the main result, for any registry that can be built.
-/

set_option autoImplicit false

namespace Formula

/-! ## Arguments of a call -/

/-- The text of a call, with a gap after each comma. -/
def callText (name gap : String) (arguments : List String) : String :=
  name ++ "(" ++ ("," ++ gap).intercalate arguments ++ ")"

namespace Expr

/-- An argument as a call holds it: a single operand needs no chain around it. -/
def unwrapped : Expr → Expr
  | chain _ head [] => head
  | e => e

theorem unwrapped_chain (head : Expr) (links : List Link) :
    unwrapped (chain false head links) = Grammar.argumentOf head links := by
  cases links <;> rfl

theorem unwrapped_of_operators_ne_nil {e : Expr} (h : e.operators ≠ []) : e.unwrapped = e := by
  cases e with
  | chain introduced head links =>
    cases links with
    | nil => exact absurd rfl h
    | cons l links => rfl
  | const | call => rfl

/-- It does not matter whether an argument is grouped before or after. -/
theorem unwrapped_group (e : Expr) : e.group.unwrapped = e.unwrapped.group := by
  cases e with
  | const | call => rfl
  | chain introduced head links =>
    obtain ⟨rfl, hsplit⟩ | ⟨tier, htier, hsplit⟩ := splitLowest_chain introduced head links
    · rw [group_eq, hsplit]
      rfl
    · obtain ⟨l, hl, -⟩ := (lowestTier?_eq_some_iff.1 htier).1
      have hne : (chain introduced head links).operators ≠ [] := by
        simpa [operators] using List.ne_nil_of_mem hl
      have hgroup : (chain introduced head links).group.operators ≠ [] := by
        rw [operators_group, hsplit]
        exact operators_cut_ne_nil introduced head (lowestTier?_eq_some_iff.1 htier).1
      rw [unwrapped_of_operators_ne_nil hne, unwrapped_of_operators_ne_nil hgroup]

end Expr

namespace Grammar

/-! ## The lexemes of a call -/

variable {strict : Bool}

/-- A text is cut into tokens as if it stood alone, if no word of it runs into what follows. -/
theorem lex_append (cs : List Char) {rest : List Char}
    (hrest : ∀ d ∈ rest.head?, Token.isWordChar strict d = false) :
    lex strict (cs ++ rest) = (lex strict cs).dropLast ++ lex strict rest := by
  rw [lex, lex, Token.scan_append strict 0 cs hrest, List.map_append, map_lexeme_scan,
    List.map_dropLast]

theorem lex_gaps {gap : List Char} (hgap : ∀ c ∈ gap, Token.isGap c) (cs : List Char) :
    lex strict (gap ++ cs) = lex strict cs := by
  induction gap with
  | nil => rfl
  | cons c gap ih =>
    obtain ⟨hc, hgap⟩ := List.forall_mem_cons.1 hgap
    rw [List.cons_append, lex_gap hc, ih hgap]

theorem isSymbol_punctuation (strict : Bool) :
    ∀ c ∈ ['(', ',', ')'], Token.isGap c = false ∧ Token.isWordChar strict c = false := by
  cases strict <;> simp <;> decide

/-- What follows the first argument of a call. -/
def furtherText (gap : List Char) (texts : List String) : List Char :=
  (texts.flatMap fun text ↦ ',' :: gap ++ text.toList) ++ [')']

theorem head?_furtherText (gap : List Char) (texts : List String) :
    ∀ d ∈ (furtherText gap texts).head?, Token.isWordChar strict d = false := by
  have hsymbol := isSymbol_punctuation strict
  cases texts <;> simp_all [furtherText]

theorem lex_furtherText {gap : List Char} (hgap : ∀ c ∈ gap, Token.isGap c) (texts : List String) :
    lex strict (furtherText gap texts) =
      (texts.flatMap fun text ↦ .symbol ',' :: lexemes strict text) ++ [.symbol ')', .finish] := by
  have hsymbol := isSymbol_punctuation strict
  induction texts with
  | nil =>
    obtain ⟨hgap, hword⟩ := hsymbol ')' (by simp)
    exact (lex_symbol hgap hword []).trans (by rw [lex_nil]; rfl)
  | cons text texts ih =>
    obtain ⟨hcomma, hword⟩ := hsymbol ',' (by simp)
    have hsplit : furtherText gap (text :: texts) =
        ',' :: (gap ++ (text.toList ++ furtherText gap texts)) := by
      simp [furtherText]
    rw [hsplit, lex_symbol hcomma hword, lex_gaps hgap, lex_append _ (head?_furtherText gap texts),
      ih, ← lexemes_eq_dropLast_lex, List.flatMap_cons]
    simp

theorem intercalate_cons {α : Type} (separator first : List α) (rest : List (List α)) :
    separator.intercalate (first :: rest) = first ++ rest.flatMap (separator ++ ·) := by
  induction rest generalizing first with
  | nil => simp
  | cons second rest ih => simp [List.intercalate_cons_cons, ih]

theorem toList_callText (name gap text : String) (texts : List String) :
    (callText name gap (text :: texts)).toList =
      name.toList ++ '(' :: (text.toList ++ furtherText gap.toList texts) := by
  simp [callText, String.toList_intercalate, intercalate_cons, furtherText, List.flatMap_map]

/-- **A call is cut into tokens as its name and its arguments are.** -/
theorem lexemes_callText {name gap : String} (hname : isName name)
    (hgap : ∀ c ∈ gap.toList, Token.isGap c) (text : String) (texts : List String) :
    lexemes false (callText name gap (text :: texts)) =
      .name name.toList :: .symbol '(' ::
        (lexemes false text ++ texts.flatMap fun text ↦ .symbol ',' :: lexemes false text) ++
          [.symbol ')'] := by
  obtain ⟨hopen, hword⟩ := isSymbol_punctuation false '(' (by simp)
  have hhead : ∀ d ∈ ('(' :: (text.toList ++ furtherText gap.toList texts)).head?,
      Token.isWordChar false d = false := by
    rintro _ ⟨rfl⟩
    exact hword
  have hlex : (lex false name.toList).dropLast = [.name name.toList] := by
    rw [← lexemes_eq_dropLast_lex, lexemes, (isName_iff.1 hname).1]
    rfl
  have hall : lex false (callText name gap (text :: texts)).toList =
      (.name name.toList :: .symbol '(' ::
        (lexemes false text ++ texts.flatMap fun text ↦ .symbol ',' :: lexemes false text) ++
          [.symbol ')']) ++ [.finish] := by
    rw [toList_callText, lex_append _ hhead, hlex, lex_symbol hopen hword,
      lex_append _ (head?_furtherText gap.toList texts), lex_furtherText hgap,
      ← lexemes_eq_dropLast_lex]
    simp
  rw [lexemes_eq_dropLast_lex, hall, List.dropLast_concat]

/-! ## The derivation of a call -/

variable {ctx : Reader.Context} {n m : Nat}

theorem Spells.mono {ls : List Lexeme} {e : Expr} (h : Spells ctx n ls e) (hnm : n ≤ m) :
    Spells ctx m ls e := by
  obtain ⟨head, links, hchain, rfl⟩ := h
  exact ⟨head, links, hchain.mono hnm, rfl⟩

/-- More arguments for a call. -/
theorem Arguments.append {k : Nat} {ls : List Lexeme} {es : List Expr} (h : Arguments ctx n k ls es)
    {further : List (String × Expr)}
    (hfurther : ∀ a ∈ further, Spells ctx n (lexemes strict a.1) a.2) :
    Arguments ctx n (k + further.length)
      (ls ++ (further.map Prod.fst).flatMap fun text ↦ .symbol ',' :: lexemes strict text)
      (es ++ further.map fun a ↦ a.2.unwrapped) := by
  induction further generalizing k ls es with
  | nil => simpa using h
  | cons a further ih =>
    obtain ⟨⟨head, links, hchain, ha⟩, hfurther⟩ := List.forall_mem_cons.1 hfurther
    have hall := ih (h.next hchain) hfurther
    rw [← Expr.unwrapped_chain, ← ha] at hall
    simpa [Nat.add_assoc, Nat.add_comm 1] using hall

/-- **The grammar derives the text of a call** from those of its arguments. -/
theorem Spells.callText {name gap : String} {f : Declaration} {arguments : List (String × Expr)}
    (hname : isName name) (hstrict : ctx.dialect.strict = false)
    (hf : ctx.functions.lookup? name = some f) (hcounted : f.arity.isCounted)
    (hgap : ∀ c ∈ gap.toList, Token.isGap c) (hpos : 0 < f.arity.count)
    (hcount : arguments.length = f.arity.count)
    (harguments : ∀ a ∈ arguments, Spells ctx n (lexemes ctx.dialect.strict a.1) a.2) :
    Spells ctx (n + 1) (lexemes ctx.dialect.strict (callText name gap (arguments.map Prod.fst)))
      (.chain false (f.call (arguments.map fun a ↦ a.2.unwrapped)) []) := by
  rw [hstrict] at harguments ⊢
  obtain ⟨first, further, rfl⟩ := List.exists_cons_of_length_pos (by omega : 0 < arguments.length)
  obtain ⟨⟨head, links, hchain, hfirst⟩, hfurther⟩ := List.forall_mem_cons.1 harguments
  have hall := (Arguments.first hchain).append hfurther
  rw [← Expr.unwrapped_chain, ← hfirst] at hall
  have hlength : 1 + further.length = f.arity.count := by
    rw [← hcount, List.length_cons, Nat.add_comm]
  rw [hlength] at hall
  have hfound : ctx.functions.lookup? (String.ofList name.toList) = some f := by
    rwa [String.ofList_toList]
  rw [List.map_cons, lexemes_callText hname hgap]
  exact ⟨_, _, .single (.call (.nil _) hstrict hfound hcounted hall), rfl⟩

end Grammar

/-! ## Calls as they are read -/

open Formula.Parser Reader

/-- The call of a function with some arguments, as it is written: without a chain around a single
operand. -/
def Declaration.written (f : Declaration) (arguments : List Expr) : Expr :=
  .chain false (f.call (arguments.map Expr.unwrapped)) []

/-- The text is read as a call of the function with these arguments, and its grouped expression, if
there is room to group it, is the call with the grouped arguments. -/
structure IsCall (ctx : Context) (text : String) (f : Declaration) (arguments : List Expr) :
    Prop where
  written : (parseRaw ctx text).value = .ok (some (f.written arguments))
  grouped : ctx.host.groupingFault? (f.written arguments) = none →
    (parse ctx text).value = .ok (some (f.written (arguments.map Expr.group)))

/-- Grouping changes nothing about a call but its arguments. -/
theorem Declaration.group_written (f : Declaration) (arguments : List Expr) :
    (f.written arguments).group = f.written (arguments.map Expr.group) := by
  have hgroup : (f.written arguments).group =
      .chain false (f.call (Expr.groupArguments (arguments.map Expr.unwrapped))) [] := rfl
  rw [hgroup, Declaration.written]
  simp [Expr.groupArguments_eq_map, Expr.unwrapped_group, Function.comp_def]

theorem isCall_of_parseRaw {ctx : Context} {text : String} {f : Declaration}
    {arguments : List Expr} (h : (parseRaw ctx text).value = .ok (some (f.written arguments))) :
    IsCall ctx text f arguments where
  written := h
  grouped := fun hroom ↦ by
    rw [parse_value, h, ← f.group_written]
    exact grouped_some hroom

/-- **A call is read**, if its arguments are expressions by themselves. -/
theorem isCall_of_eq_callText {ctx : Context} (hfunctions : ctx.functions.Callable)
    (hstrict : ctx.dialect.strict = false) {f : Declaration}
    (hf : f ∈ ctx.functions.declarations) {name gap : String} (hname : SameLetters name f.name)
    (hgap : ∀ c ∈ gap.toList, Token.isGap c) {arguments : List (String × Expr)}
    (hcount : arguments.length = f.arity.count)
    (hread : ∀ a ∈ arguments, (parseRaw ctx a.1).value = .ok (some a.2)) {text : String}
    (htext : text = callText name gap (arguments.map Prod.fst))
    (hlength : (text.length : Int) ≤ ctx.dialect.maxLength)
    (hdepth : (nesting 0 text.toList : Int) ≤ ctx.dialect.maxDepth) :
    IsCall ctx text f (arguments.map Prod.snd) ∨ ¬ ctx.host.Follows (nesting 0 text.toList) ∧
      (parseRaw ctx text).value = .error (.rejected .tooDeepToFollow) := by
  obtain ⟨hspelled, hpos, -⟩ := hfunctions.wellFormed f hf
  -- the arguments may need fewer levels, but all of them are within the bound of the dialect
  have harguments : ∀ a ∈ arguments, Grammar.Spells ctx ctx.dialect.maxDepth.toNat
      (Grammar.lexemes ctx.dialect.strict a.1) a.2 := by
    intro a ha
    obtain ⟨-, n, hn, hspells⟩ := Grammar.spells_of_parseRaw
      (fun d hd ↦ (hfunctions.wellFormed d hd).2.1) (hread a ha)
    exact hspells.mono (by omega)
  have hcall := Grammar.Spells.callText (hname.isName_eq ▸ hspelled) hstrict
    (hfunctions.lookup?_eq hf hname) (hfunctions.counted f hf) hgap hpos hcount harguments
  rw [← htext] at hcall
  obtain hread | hdeep := hcall.tight.parseRaw hdepth hlength
  · refine .inl (isCall_of_parseRaw ?_)
    rw [hread, Declaration.written, List.map_map]
    rfl
  · exact .inr hdeep

namespace Registry

/-- **What can be registered can be called.**

A procedure with one, two or three arguments is accepted under a name exactly if the name is cut
into a single name that is all of it, and has no point in it.

Let a registry have come about by any registrations, accepted or refused, none of them with a
floating-point number for an arity.  Take any of its functions, its name in any letter case, and as
many texts as the function has arguments, each of them an expression by itself.  Then the text of
the call is read as a call of that function with those arguments in that order, each of them without
a chain around a single operand; and so it is when everything is grouped by tiers, if the host has
room for that.  The text must not be too long, nor nested too deeply, and only the host may give up
on it, if its parentheses are nested deeper than the host can follow. -/
theorem spelling_agrees :
    (∀ (r : Registry) (name : String) (arity : Value) (procedure : Procedure),
      (Arity.ofValue? arity).isSome →
      ((r.register (.text name) arity (some procedure)).isOk ↔
        Token.ofText false name = [⟨.name name.toList, 0⟩, ⟨.finish, name.length⟩] ∧
          '.' ∉ name.toList)) ∧
    ∀ (registrations : List Registration) (ctx : Context),
      (∀ g ∈ registrations, ∀ x, g.arity ≠ .float x) →
      ctx.functions = registrations.foldl after empty → ctx.dialect.strict = false →
      ∀ f ∈ ctx.functions.declarations, ∀ name gap : String, SameLetters name f.name →
        (∀ c ∈ gap.toList, c.toNat ≤ 32) → ∀ arguments : List (String × Expr),
          arguments.length = f.arity.count →
          (∀ a ∈ arguments, (parseRaw ctx a.1).value = .ok (some a.2)) →
          ∀ text : String, text = callText name gap (arguments.map Prod.fst) →
            (text.length : Int) ≤ ctx.dialect.maxLength →
            (nesting 0 text.toList : Int) ≤ ctx.dialect.maxDepth →
            IsCall ctx text f (arguments.map Prod.snd) ∨
              ¬ ctx.host.Follows (nesting 0 text.toList) ∧
                (parseRaw ctx text).value = .error (.rejected .tooDeepToFollow) := by
  constructor
  · intro r name arity procedure harity
    rw [isOk_register_text harity, isName_iff]
  · intro registrations ctx harity hfunctions hstrict f hf name gap hname hgap arguments hcount
      hread text htext hlength hdepth
    have hcallable : ctx.functions.Callable := hfunctions ▸ Callable.empty.foldl_after harity
    have hgap : ∀ c ∈ gap.toList, Token.isGap c := fun c hc ↦ Token.isGap_iff.2 (hgap c hc)
    exact isCall_of_eq_callText hcallable hstrict hf hname hgap hcount hread htext hlength hdepth

/-- A name that no expression can spell, and two spellings of another one. -/
def largerRegistrations : List Registration :=
  [⟨.text "max_2", .integer 2, some .larger⟩, ⟨.text "Max2", .integer 1, some (.firstAt id)⟩,
    ⟨.text "MAX2", .integer 2, some .larger⟩]

/-- The function that is left. -/
def largerDeclaration : Declaration := ⟨"MAX2", ⟨2, .whole⟩, .larger⟩

/-- The standard dialect with these registrations. -/
def largerContext : Context :=
  ⟨⟨false, 100, 10000, 10000⟩, largerRegistrations.foldl after empty, .native⟩

theorem functions_largerContext : largerContext.functions = ⟨[largerDeclaration]⟩ := rfl

/-- A text of a few digits without parentheses, as it is written. -/
theorem parseRaw_largerContext {text : String} {e : Expr}
    (h : Grammar.Spells largerContext 0 (Grammar.lexemes false text) e)
    (hlength : text.length ≤ 10) : (parseRaw largerContext text).value = .ok (some e) := by
  have hmax : (text.length : Int) ≤ 10000 := by omega
  obtain hread | ⟨hdeep, -⟩ := Grammar.Spells.parseRaw (by decide) hmax h
  · exact hread
  · exact absurd Host.follows_zero hdeep

/-- A call with an operation for one of its arguments, as an argument of another call. -/
theorem spelling_agrees_larger :
    (empty.register (.text "Max2") (.integer 1) (some (.firstAt id))).isOk ∧
      IsCall largerContext "max2(MaX2(1, 2 - 3), 1)" largerDeclaration
        [.chain false (largerDeclaration.call
            [.const (.finite false 1 0),
              .chain false (.const (.finite false 2 0)) [(.minus, .const (.finite false 3 0))]]) [],
          .chain false (.const (.finite false 1 0)) []] := by
  have hdigit : ∀ {n : Nat} (_ : n < 10), Grammar.Operand largerContext 0
      [.number [Nat.digitChar n]] (.const (.finite false n 0)) :=
    Grammar.Operand.digit (by decide) 0
  have hone : (parseRaw largerContext "1").value =
      .ok (some (.chain false (.const (.finite false 1 0)) [])) := by
    have hlexemes : Grammar.lexemes false "1" = [.number ['1']] := by decide +kernel
    refine parseRaw_largerContext ?_ (by decide)
    rw [hlexemes]
    exact ⟨_, _, .single (hdigit (show 1 < 10 by decide)), rfl⟩
  have hminus : (parseRaw largerContext "2 - 3").value = .ok (some
      (.chain false (.const (.finite false 2 0)) [(.minus, .const (.finite false 3 0))])) := by
    have hlexemes : Grammar.lexemes false "2 - 3" =
        [.number ['2']] ++ .symbol '-' :: [.number ['3']] := by
      decide +kernel
    refine parseRaw_largerContext ?_ (by decide)
    rw [hlexemes]
    exact ⟨_, _, .link .minus (.single (hdigit (show 2 < 10 by decide)))
      (hdigit (show 3 < 10 by decide)), rfl⟩
  have hcall := spelling_agrees.2 largerRegistrations largerContext
    (by simp [largerRegistrations]) rfl rfl largerDeclaration (by simp [functions_largerContext])
  refine ⟨(spelling_agrees.1 _ _ _ _ rfl).2 (by decide +kernel), ?_⟩
  obtain hinner | ⟨hdeep, -⟩ := hcall "MaX2" " " (by decide +kernel) (by simp)
    [("1", _), ("2 - 3", _)] rfl (by simpa using ⟨hone, hminus⟩) "MaX2(1, 2 - 3)"
    (by decide +kernel) (by decide +kernel) (by decide +kernel)
  · obtain houter | ⟨hdeep, -⟩ := hcall "max2" " " (by decide +kernel) (by simp)
      [("MaX2(1, 2 - 3)", _), ("1", _)] rfl (by simpa using ⟨hinner.written, hone⟩)
      "max2(MaX2(1, 2 - 3), 1)" (by decide +kernel) (by decide +kernel) (by decide +kernel)
    · exact houter
    · exact absurd (Host.follows_framed (by decide +kernel)) hdeep
  · exact absurd (Host.follows_framed (by decide +kernel)) hdeep

end Registry

end Formula
