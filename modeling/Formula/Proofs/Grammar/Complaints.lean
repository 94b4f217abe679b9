import Formula.Parse

/-!
# Kinds of complaints

The errors that a reader reports are of three kinds.  Some say that something is still to come
(`isPremature`), others that something is wrong, whatever follows (`isDefinite`); and then there are
the name of a function that no parenthesis follows and a text that is too long.  A caller sees
nothing but the code and the wording of an error, and this is enough to tell the kinds apart
(`isPremature_iff`, `isDefinite_iff`).

The kind says where a reading has stopped.

* `firm_run` — where a token is read, no complaint is premature, and it is not about the host if
  that can follow.
* `exists_finish_eq` — at the end of the text, none is definite.

`outcome` is what a caller learns from a reading, and `value_readTokens` says that the parser
reports it.
-/

set_option autoImplicit false

namespace Formula

/-! ## Codes -/

namespace ParseError

/-- The codes of errors. -/
def codes : List String :=
  ["UNEXPECTED_TOKEN", "INVALID_OPERATOR", "INVALID_NUMBER", "UNKNOWN_FUNCTION",
    "MISSING_PARENTHESIS", "ARITY_MISMATCH", "TRAILING_OPERATOR", "EMPTY", "TOO_DEEP", "TOO_LONG"]

theorem code_mem_codes (e : ParseError) : e.code ∈ codes := by
  cases e <;> (simp only [code]; decide +kernel)

/-- Something is still to come. -/
def isPremature : ParseError → Bool
  | empty | trailingOperator | missingClosing => true
  | _ => false

/-- The wording of a parenthesis that is missing depends on which one it is. -/
theorem message_missingOpening_ne (f : String) :
    (missingOpening f).message ≠ missingClosing.message := by
  have hopening : "Missing opening parenthesis after ".toList =
      "Missing ".toList ++ 'o' :: "pening parenthesis after ".toList := by decide +kernel
  have hclosing : missingClosing.message.toList =
      "Missing ".toList ++ 'c' :: "losing parenthesis".toList := by decide +kernel
  have hmessage : (missingOpening f).message = "Missing opening parenthesis after " ++ f := rfl
  intro h
  rw [← String.toList_inj, hmessage, hclosing, String.toList_append, hopening, List.append_assoc,
    List.append_cancel_left_eq, List.cons_append] at h
  exact absurd (List.cons_eq_cons.1 h).1 (by decide)

/-- A caller can tell from the code, and for parentheses from the wording. -/
theorem isPremature_iff (e : ParseError) :
    e.isPremature ↔ e.code = "EMPTY" ∨ e.code = "TRAILING_OPERATOR" ∨
      e.code = "MISSING_PARENTHESIS" ∧ e.message = "Missing closing parenthesis" := by
  cases e with
  | empty | trailingOperator | missingClosing => decide +kernel
  | missingOpening f =>
    refine iff_of_false (by simp [isPremature]) ?_
    rintro (h | h | ⟨-, h⟩)
    · exact absurd (show "MISSING_PARENTHESIS" = _ from h) (by decide +kernel)
    · exact absurd (show "MISSING_PARENTHESIS" = _ from h) (by decide +kernel)
    · exact message_missingOpening_ne f h
  | _ =>
    simp only [code]
    refine iff_of_false (by simp [isPremature]) ?_
    rintro (h | h | ⟨h, -⟩) <;> exact absurd h (by decide +kernel)

/-- The codes that say that what is there is wrong, whatever follows. -/
def definiteCodes : List String :=
  ["UNEXPECTED_TOKEN", "INVALID_OPERATOR", "INVALID_NUMBER", "UNKNOWN_FUNCTION", "ARITY_MISMATCH",
    "TOO_DEEP"]

/-- The errors with these codes. -/
def isDefinite : ParseError → Bool
  | tooLong _ | missingOpening _ | missingClosing | empty | trailingOperator => false
  | _ => true

theorem isDefinite_iff (e : ParseError) : e.isDefinite ↔ e.code ∈ definiteCodes := by
  cases e with
  | tooLong limit | missingOpening f | missingClosing | empty | trailingOperator =>
    simp only [isDefinite, code]
    decide +kernel
  | _ =>
    simp only [isDefinite, code]
    decide +kernel

theorem isDefinite_of_isPremature {e : ParseError} (h : e.isPremature) : e.isDefinite = false := by
  cases e <;> first | rfl | cases h

end ParseError

/-! ## Where a reading stops -/

namespace Reader

variable {ctx : Context}

variable (ctx) in
/-- If the reading stops here, then not because something is still to come, and because of the host
only if that cannot follow, within the limit for the depth. -/
def Firm (r : Except Stop State) : Prop :=
  ∀ closings e, r = .error ⟨closings, .rejected e⟩ → e.isPremature = false ∧
    (e = .tooDeepToFollow → ∃ opened : List Bracket,
      (opened.length : Int) ≤ ctx.dialect.maxDepth ∧ ctx.host.canFollow opened = false)

theorem Firm.ok (s : State) : Firm ctx (.ok s) := fun _ _ h ↦ by cases h

theorem Firm.reject (s : State) {e : ParseError} (he : e.isPremature = false)
    (hhost : e ≠ .tooDeepToFollow) : Firm ctx (s.reject e) := fun _ _ h ↦ by
  cases h
  exact ⟨he, fun htooDeep ↦ absurd htooDeep hhost⟩

/-- A number is not rejected for what surrounds it. -/
theorem isPremature_of_number {maxExponent : Int} {word : List Char} {e : ParseError}
    (h : number maxExponent word = .error e) :
    e.isPremature = false ∧ e ≠ .tooDeepToFollow := by
  unfold number at h
  split at h
  · cases h
    exact ⟨rfl, nofun⟩
  · split at h
    · cases h
      exact ⟨rfl, nofun⟩
    · split at h
      · split at h
        · cases h
          exact ⟨rfl, nofun⟩
        · cases h
      · cases h

theorem firm_enter (s : State) (level : Level) : Firm ctx (s.enter ctx level) := by
  unfold State.enter
  dsimp only
  split
  · exact .reject s rfl nofun
  · rename_i hdepth
    split
    · rename_i hfollow
      rintro closings e h
      cases h
      refine ⟨rfl, fun _ ↦ ⟨brackets (level :: s.outer), ?_, by simpa using hfollow⟩⟩
      rw [length_brackets]
      exact Int.not_lt.1 hdepth
    · exact .ok _

theorem firm_readOperand (s : State) (before : Before) (negative : Bool) (t : Token) :
    Firm ctx (s.readOperand ctx before negative t) := by
  unfold State.readOperand
  split
  · split
    · exact .ok _
    · rename_i he
      exact .reject s (isPremature_of_number he).1 (isPremature_of_number he).2
  · split
    · exact .ok _
    · exact .reject s rfl nofun
  · split
    · exact firm_enter s _
    · split
      · exact .ok _
      · split
        · exact .ok _
        · exact .reject s rfl nofun
  · exact .reject s rfl nofun

theorem firm_closeArgument (s : State) (level : Level) (outer : List Level) (f : Declaration)
    (arguments : List Expr) (c : Char) : Firm ctx (s.closeArgument level outer f arguments c) := by
  unfold State.closeArgument
  dsimp only
  split
  · split
    · exact .ok _
    · exact .reject s rfl nofun
  · split
    · exact .ok _
    · exact .reject s rfl nofun

theorem firm_readLink (s : State) (before : Before) (last : Expr) (c : Char) :
    Firm ctx (s.readLink before last c) := by
  unfold State.readLink
  split
  · exact .ok _
  · exact .reject s rfl nofun

theorem firm_readOperator (s : State) (before : Before) (last : Expr) (t : Token) :
    Firm ctx (s.readOperator before last t) := by
  unfold State.readOperator
  split
  · exact .reject s rfl nofun
  · exact .reject s rfl nofun
  · exact .reject s rfl nofun
  · split
    · exact firm_readLink s before last _
    · split
      · split
        · exact .ok _
        · exact firm_readLink s before last _
      · split
        · exact firm_closeArgument _ _ _ _ _ _
        · exact firm_readLink s before last _

variable (ctx) in
/-- **A complaint about a token never says that something is still to come**, and it is only about
the host if that cannot follow. -/
theorem firm_read (s : State) (t : Token) : Firm ctx (s.read ctx t) := by
  unfold State.read
  split
  · exact firm_readOperand s _ _ t
  · exact firm_readOperator s _ _ t
  · unfold State.readOpening
    split
    · split
      · exact firm_enter s _
      · exact fun _ _ h ↦ by cases h
    · exact .reject s rfl nofun

variable (ctx) in
theorem firm_run (s : State) (ts : List Token) : Firm ctx (run ctx s ts) := by
  induction ts generalizing s with
  | nil => exact .ok s
  | cons t ts ih =>
    rw [run_cons]
    cases hread : s.read ctx t with
    | error stop =>
      have hfirm := firm_read ctx s t
      rw [hread] at hfirm
      exact hfirm
    | ok s' => exact ih s'

/-- A complaint at the end says that something is still to come, unless the name of a function is
the last thing that has been read. -/
theorem exists_finish_eq {s : State} {stop : Stop} (h : s.finish = .error stop) :
    ∃ e, stop.cause = .rejected e ∧
      (e.isPremature ∧ (∀ before negative f, s.place ≠ .opening before negative f) ∨
        ∃ f, e = .missingOpening f) := by
  obtain ⟨place, outer, closings⟩ := s
  cases place with
  | opening before negative f =>
    cases h
    exact ⟨_, rfl, .inr ⟨f.name, rfl⟩⟩
  | operand before negative =>
    have hplace : ∀ before' negative' f,
        Place.operand before negative ≠ .opening before' negative' f := fun _ _ _ h ↦ by cases h
    cases outer <;> cases before <;> cases h <;> exact ⟨_, rfl, .inl ⟨rfl, hplace⟩⟩
  | operator before last =>
    cases outer with
    | nil => cases h
    | cons level outer =>
      cases h
      exact ⟨_, rfl, .inl ⟨rfl, fun _ _ _ h ↦ by cases h⟩⟩

/-! ## Outcomes -/

/-- What a caller learns from a reading that stops. -/
def Stop.unreadable (stop : Stop) : Unreadable :=
  match stop.cause with
  | .rejected e => .rejected e
  | .uncounted f => .uncounted f

variable (ctx) in
/-- What a caller learns from a reading that goes on with these tokens to the end of the text. -/
def outcome (s : State) (ts : List Token) : Except Unreadable Expr :=
  ((run ctx s ts).bind State.finish).mapError Stop.unreadable

theorem value_stopped {α : Type} (stop : Stop) :
    (Parser.stopped (α := α) stop).value = .error stop.unreadable := by
  obtain ⟨closings, e | f⟩ := stop <;> rfl

theorem value_readTokens (hdepth : 0 ≤ ctx.dialect.maxDepth) (ts : List Token) :
    (Parser.readTokens ctx ts).value = outcome ctx start ts := by
  rw [Parser.readTokens, outcome]
  rw [if_neg (Int.not_lt.2 hdepth)]
  cases run ctx start ts with
  | error stop => exact value_stopped stop
  | ok s =>
    dsimp only [Except.bind]
    cases s.finish with
    | error stop => exact value_stopped stop
    | ok e => rfl

theorem value_readTokens_of_neg (hdepth : ctx.dialect.maxDepth < 0) (ts : List Token) :
    (Parser.readTokens ctx ts).value = .error (.rejected (.tooDeep ctx.dialect.maxDepth)) := by
  rw [Parser.readTokens, if_pos hdepth]
  rfl

/-- A text is rejected where a token is read, or at the end. -/
theorem outcome_rejected {s : State} {ts : List Token} {e : ParseError}
    (h : outcome ctx s ts = .error (.rejected e)) :
    (∃ closings, run ctx s ts = .error ⟨closings, .rejected e⟩) ∨
      ∃ s' closings, run ctx s ts = .ok s' ∧ s'.finish = .error ⟨closings, .rejected e⟩ := by
  have hstop : ∀ stop : Stop, stop.unreadable = .rejected e →
      stop = ⟨stop.closings, .rejected e⟩ := by
    rintro ⟨closings, e' | f⟩ h <;> cases h
    rfl
  rw [outcome] at h
  cases hrun : run ctx s ts with
  | error stop =>
    rw [hrun] at h
    exact .inl ⟨stop.closings, congrArg _ (hstop stop (Except.error.inj h))⟩
  | ok s' =>
    rw [hrun] at h
    dsimp only [Except.bind] at h
    cases hfinish : s'.finish with
    | error stop =>
      rw [hfinish] at h
      exact .inr ⟨s', stop.closings, rfl, by rw [hfinish, ← hstop stop (Except.error.inj h)]⟩
    | ok e' => rw [hfinish] at h; cases h

end Reader

end Formula
