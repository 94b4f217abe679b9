import Formula.Proofs.Grammar.Reading
import Formula.Proofs.Registry

/-!
# Readings that the text decides

A reader counts the arguments of a call, and a function whose arity it cannot count to is the one
thing that ends a reading without being the fault of the text.  It happens exactly where the reading
comes to the parenthesis after the name of such a function (`Stumbles`).  Every other text either
has an expression, or has no tokens, or is rejected with an error.

The only place where an arity is asked for is the parenthesis after a name, so the invariant of a
reading is about that place alone (`State.Declared`): the function whose name has just been read is
one of the registry.

* `proceeds_or_stumbles` — a reading goes on, or rejects the text, or stumbles.
* `Parser.parseRaw_eq_uncounted_iff` — the same for a whole text.
* `Registry.Counted` — there is no such function; then no text is left without an outcome
  (`Parser.parseRaw_ne_uncounted`).
-/

set_option autoImplicit false

namespace Formula

/-! ## Registries -/

/-- The arities of all functions can be counted to. -/
def Registry.Counted (r : Registry) : Prop := ∀ d ∈ r.declarations, d.arity.isCounted

theorem Registry.counted_builtins (ar : Arithmetic) : (builtins ar).Counted := by
  simp [Counted, builtins, Arity.isCounted]

/-- **Registering a function under a whole number keeps arities countable.** -/
theorem Registry.Counted.register {r r' : Registry} {name : Value} {n : Int}
    {procedure : Option Procedure} {records : List Log.Record} (hr : r.Counted)
    (h : r.register name (.integer n) procedure = .ok (r', records)) : r'.Counted := by
  rw [Registry.register] at h
  cases hd : declare name (.integer n) procedure with
  | error refusal => rw [hd] at h; cases h
  | ok d =>
    rw [hd] at h
    cases h
    intro d' hd'
    rcases mem_place hd' with rfl | hd'
    · exact isCounted_of_declare hd
    · exact hr d' hd'

namespace Reader

variable (ctx : Context)

/-! ## Single tokens -/

/-- A function whose name has just been read is one of the registry. -/
def State.Declared (s : State) : Prop :=
  ∀ before negative f, s.place = .opening before negative f → f ∈ ctx.functions.declarations

/-- The reading goes on, or the text is rejected. -/
inductive Proceeds : Except Stop State → Prop
  | ok {s : State} : s.Declared ctx → Proceeds (.ok s)
  | rejected (closings : List Char) (e : ParseError) : Proceeds (.error ⟨closings, .rejected e⟩)

/-- The tokens lead the reader to the parenthesis after the name of a function whose arity cannot be
counted to. -/
inductive Stumbles : State → List Token → Declaration → Prop
  | here {s : State} {t : Token} {ts : List Token} {before : Before} {negative : Bool}
      {f : Declaration} : s.place = .opening before negative f → t.lexeme = .symbol '(' →
      f.arity.isCounted = false → Stumbles s (t :: ts) f
  | later {s s' : State} {t : Token} {ts : List Token} {f : Declaration} :
      s.read ctx t = .ok s' → Stumbles s' ts f → Stumbles s (t :: ts) f

variable {ctx}

theorem declared_start : start.Declared ctx := fun _ _ _ h ↦ by cases h

theorem Proceeds.operand (before : Before) (negative : Bool) (outer : List Level)
    (closings : List Char) : Proceeds ctx (.ok ⟨.operand before negative, outer, closings⟩) :=
  .ok fun _ _ _ h ↦ by cases h

theorem Proceeds.operator (before : Before) (last : Expr) (outer : List Level)
    (closings : List Char) : Proceeds ctx (.ok ⟨.operator before last, outer, closings⟩) :=
  .ok fun _ _ _ h ↦ by cases h

theorem proceeds_enter (s : State) (level : Level) : Proceeds ctx (s.enter ctx level) := by
  unfold State.enter
  dsimp only
  split
  · exact .rejected _ _
  · split
    · exact .rejected _ _
    · exact .operand _ _ _ _

theorem proceeds_readOperand (s : State) (before : Before) (negative : Bool) (t : Token) :
    Proceeds ctx (s.readOperand ctx before negative t) := by
  unfold State.readOperand
  split
  · split
    · exact .operator _ _ _ _
    · exact .rejected _ _
  · split
    · rename_i f hf
      refine .ok fun _ _ f' h ↦ ?_
      cases h
      exact List.mem_of_find?_eq_some hf
    · exact .rejected _ _
  · split
    · exact proceeds_enter s _
    · split
      · exact .operand _ _ _ _
      · split
        · exact .operand _ _ _ _
        · exact .rejected _ _
  · exact .rejected _ _

theorem proceeds_readLink (s : State) (before : Before) (last : Expr) (c : Char) :
    Proceeds ctx (s.readLink before last c) := by
  unfold State.readLink
  split
  · exact .operand _ _ _ _
  · exact .rejected _ _

theorem proceeds_closeArgument (s : State) (level : Level) (outer : List Level) (f : Declaration)
    (arguments : List Expr) (c : Char) :
    Proceeds ctx (s.closeArgument level outer f arguments c) := by
  unfold State.closeArgument
  split
  · split
    · exact .operator _ _ _ _
    · exact .rejected _ _
  · split
    · exact .operand _ _ _ _
    · exact .rejected _ _

theorem proceeds_readOperator (s : State) (before : Before) (last : Expr) (t : Token) :
    Proceeds ctx (s.readOperator before last t) := by
  unfold State.readOperator
  split
  · exact .rejected _ _
  · exact .rejected _ _
  · exact .rejected _ _
  · split
    · exact proceeds_readLink s before last _
    · split
      · split
        · exact .operator _ _ _ _
        · exact proceeds_readLink s before last _
      · split
        · exact proceeds_closeArgument _ _ _ _ _ _
        · exact proceeds_readLink s before last _

variable (ctx) in
/-- **One token goes on, or is rejected, or is where the reading stumbles.** -/
theorem proceeds_read (s : State) (t : Token) (ts : List Token) :
    Proceeds ctx (s.read ctx t) ∨ ∃ f, Stumbles ctx s (t :: ts) f := by
  unfold State.read
  split
  · exact .inl (proceeds_readOperand s _ _ t)
  · exact .inl (proceeds_readOperator s _ _ t)
  · rename_i before negative f hplace
    rw [State.readOpening]
    split
    · rename_i hopening
      cases hcounted : f.arity.isCounted with
      | false => exact .inr ⟨f, .here hplace hopening hcounted⟩
      | true => exact .inl (proceeds_enter s _)
    · exact .inl (.rejected _ _)

/-! ## Lists of tokens -/

/-- **A reading goes on to its end, or rejects the text, or stumbles.** -/
theorem proceeds_or_stumbles {s : State} (hs : s.Declared ctx) (ts : List Token) :
    Proceeds ctx (run ctx s ts) ∨ ∃ f, Stumbles ctx s ts f := by
  induction ts generalizing s with
  | nil => exact .inl (.ok hs)
  | cons t ts ih =>
    obtain hread | hstumbles := proceeds_read ctx s t ts
    · rw [run_cons]
      cases hread' : s.read ctx t with
      | error stop =>
        rw [hread'] at hread
        exact .inl hread
      | ok s' =>
        rw [hread'] at hread
        cases hread with
        | ok hs' => exact (ih hs').imp id fun ⟨f, hf⟩ ↦ ⟨f, .later hread' hf⟩
    · exact .inr hstumbles

/-- A reading that stumbles ends there, and names the function. -/
theorem Stumbles.run_eq {s : State} {ts : List Token} {f : Declaration}
    (h : Stumbles ctx s ts f) :
    ∃ closings, run ctx s ts = .error ⟨closings, .uncounted f.name⟩ := by
  induction h with
  | @here s t ts before negative f hplace hopening hcounted =>
    refine ⟨s.closings, ?_⟩
    rw [run_cons, State.read, hplace]
    dsimp only
    rw [State.readOpening, if_pos hopening, if_neg (by simp [hcounted])]
    rfl
  | later hread _ ih =>
    rw [run_cons, hread]
    exact ih

/-- It stumbles over a function of the registry. -/
theorem Stumbles.mem {s : State} {ts : List Token} {f : Declaration} (h : Stumbles ctx s ts f)
    (hs : s.Declared ctx) : f ∈ ctx.functions.declarations ∧ f.arity.isCounted = false := by
  induction h with
  | here hplace _ hcounted => exact ⟨hs _ _ _ hplace, hcounted⟩
  | @later s s' t ts f hread _ ih =>
    obtain hproceeds | ⟨f', hf'⟩ := proceeds_read ctx s t []
    · rw [hread] at hproceeds
      cases hproceeds with
      | ok hs' => exact ih hs'
    · obtain ⟨closings, hrun⟩ := hf'.run_eq
      rw [run_cons, hread] at hrun
      cases hrun

/-- Where a reading stumbles, an opening parenthesis is to be read. -/
theorem Stumbles.exists_opening {s : State} {ts : List Token} {f : Declaration}
    (h : Stumbles ctx s ts f) : ∃ t ∈ ts, t.lexeme = .symbol '(' := by
  induction h with
  | here _ hopening _ => exact ⟨_, List.mem_cons_self, hopening⟩
  | later _ _ ih =>
    obtain ⟨t, ht, hopening⟩ := ih
    exact ⟨t, List.mem_cons_of_mem _ ht, hopening⟩

end Reader

/-! ## Whole texts -/

namespace Parser

open Reader Log Grammar

variable {ctx : Context}

theorem readTokens_eq_uncounted_iff {ts : List Token} {name : String} :
    (readTokens ctx ts).value = .error (.uncounted name) ↔
      0 ≤ ctx.dialect.maxDepth ∧ ∃ f, Stumbles ctx start ts f ∧ f.name = name := by
  rw [readTokens]
  split
  · rename_i hdepth
    exact iff_of_false (by simp [stopped]) fun h ↦ absurd h.1 (Int.not_le.2 hdepth)
  · rename_i hdepth
    rw [and_iff_right (Int.not_lt.1 hdepth)]
    constructor
    · intro h
      obtain hproceeds | ⟨f, hf⟩ := proceeds_or_stumbles declared_start ts
      · split at h
        · rename_i stop hrun
          rw [hrun] at hproceeds
          cases hproceeds
          simp [stopped] at h
        · rename_i s hrun
          split at h
          · rename_i stop hfinish
            unfold State.finish at hfinish
            dsimp only at hfinish
            split at hfinish <;> cases hfinish <;> simp [stopped] at h
          · cases h
      · obtain ⟨closings, hrun⟩ := hf.run_eq
        rw [hrun] at h
        refine ⟨f, hf, ?_⟩
        simpa [stopped] using h
    · rintro ⟨f, hf, rfl⟩
      obtain ⟨closings, hrun⟩ := hf.run_eq
      rw [hrun]
      rfl

/-- The text, which is within the limits, calls a function whose arity cannot be counted to, and the
reading comes as far as that call. -/
structure Stumbles (ctx : Context) (text : String) (f : Declaration) : Prop where
  length_le : (text.length : Int) ≤ ctx.dialect.maxLength
  maxDepth_nonneg : 0 ≤ ctx.dialect.maxDepth
  reads : Reader.Stumbles ctx start (Token.ofText ctx.dialect.strict text).dropLast f

/-- **A reading ends without an outcome exactly if it stumbles.** -/
theorem parseRaw_eq_uncounted_iff {text : String} {name : String} :
    (parseRaw ctx text).value = .error (.uncounted name) ↔
      ∃ f, Stumbles ctx text f ∧ f.name = name := by
  rcases lt_or_ge ctx.dialect.maxLength text.length with hlength | hlength
  · rw [parseRaw_tooLong hlength]
    refine iff_of_false (by simp) ?_
    rintro ⟨f, hf, -⟩
    exact absurd hf.length_le (Int.not_le.2 hlength)
  by_cases hnil : (Token.ofText ctx.dialect.strict text).dropLast = []
  · rw [parseRaw_eq_none_iff.2 ⟨hlength, by rw [lexemes, hnil]; rfl⟩]
    refine iff_of_false (by simp) ?_
    rintro ⟨f, hf, -⟩
    have hreads := hf.reads
    rw [hnil] at hreads
    cases hreads
  · have hmap : ∀ x : Except Unreadable Expr,
        x.map some = .error (.uncounted name) ↔ x = .error (.uncounted name) := by
      rintro (u | e) <;> simp [Except.map]
    rw [parseRaw_value hlength hnil, hmap, readTokens_eq_uncounted_iff]
    constructor
    · rintro ⟨hdepth, f, hf, hname⟩
      exact ⟨f, ⟨hlength, hdepth, hf⟩, hname⟩
    · rintro ⟨f, ⟨-, hdepth, hf⟩, hname⟩
      exact ⟨hdepth, f, hf, hname⟩

/-- **Whether a text is read is decided by the text**, if all arities can be counted to. -/
theorem parseRaw_ne_uncounted (hfunctions : ctx.functions.Counted) (text : String) (f : String) :
    (parseRaw ctx text).value ≠ .error (.uncounted f) := by
  intro h
  obtain ⟨d, hd, -⟩ := parseRaw_eq_uncounted_iff.1 h
  obtain ⟨hmem, hcounted⟩ := hd.reads.mem declared_start
  exact absurd (hfunctions d hmem) (by simp [hcounted])

/-- Nothing is grouped before it is read. -/
theorem parseRaw_ne_exhausted (ctx : Context) (text : String) (x : Exhaustion) :
    (parseRaw ctx text).value ≠ .error (.exhausted x) := by
  have hstopped : ∀ stop : Stop, (stopped (α := Expr) stop).value ≠ .error (.exhausted x) := by
    rintro ⟨closings, e | f⟩ <;> simp [stopped]
  have hread : ∀ ts, (readTokens ctx ts).value ≠ .error (.exhausted x) := by
    intro ts
    rw [readTokens]
    split
    · exact hstopped _
    · split
      · exact hstopped _
      · split
        · exact hstopped _
        · simp
  rcases lt_or_ge ctx.dialect.maxLength text.length with hlength | hlength
  · rw [parseRaw_tooLong hlength]
    simp
  by_cases hnil : (Token.ofText ctx.dialect.strict text).dropLast = []
  · rw [parseRaw_eq_none_iff.2 ⟨hlength, by rw [lexemes, hnil]; rfl⟩]
    simp
  · rw [parseRaw_value hlength hnil]
    intro h
    have hne := hread (Token.ofText ctx.dialect.strict text).dropLast
    cases hvalue : (readTokens ctx (Token.ofText ctx.dialect.strict text).dropLast).value with
    | error u =>
      rw [hvalue] at h hne
      exact hne (congrArg _ (Except.error.inj h))
    | ok e => rw [hvalue] at h; cases h

end Parser

end Formula
