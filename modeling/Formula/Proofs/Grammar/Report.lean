import Formula.Proofs.Grammar.Continuation

/-!
# What is reported of a reading

A reading reports every group and every argument that it has closed, and at the end how it came out.
Whoever looks for the cause of an error wants to find it in the last record, and to find it there
only: records of parts that were read well may precede it, but nothing else that looks like an
outcome.

* `ReportsRejection records e` — that is how a rejection is reported.
* `readTokens_cases`, `parse_cases` — the ways in which a text is read, with what is reported.
* `reportsRejection_closings` — the closings of a reading that stops do not look like an outcome.
* `reportsRejection_parse_iff` — the main result: this is so for every text that is looked at.  A
  text that is too long is turned away before that, and nothing is reported of it
  (`not_reportsRejection_oversized`).
-/

set_option autoImplicit false

namespace Formula

open Reader Log

/-! ## Records by their beginnings -/

/-- The message of the record begins like this. -/
def Log.Record.beginsWith (r : Record) (opening : String) : Bool :=
  opening.toList.isPrefixOf r.message.toList

theorem isPrefixOf_append {opening front rest : List Char} (h : opening.length ≤ front.length) :
    opening.isPrefixOf (front ++ rest) = opening.isPrefixOf front := by
  rw [Bool.eq_iff_iff, List.isPrefixOf_iff_prefix, List.isPrefixOf_iff_prefix]
  exact ⟨fun hprefix ↦ List.prefix_of_prefix_length_le hprefix (List.prefix_append front rest) h,
    fun hprefix ↦ hprefix.trans (List.prefix_append front rest)⟩

namespace Parser

/-- If the beginning of a message is long enough, the rest of it does not matter. -/
theorem beginsWith_note {opening front : String} (h : opening.toList.length ≤ front.toList.length)
    (rest : String) :
    (note (front ++ rest)).beginsWith opening = opening.toList.isPrefixOf front.toList := by
  have hmessage : (note (front ++ rest)).message = front ++ rest := rfl
  rw [Record.beginsWith, hmessage, String.toList_append, isPrefixOf_append h]

/-- The record says that a text is not an expression. -/
def saysFailed (r : Record) : Bool := r.beginsWith "parsing failed"

/-- The record says that a text is an expression. -/
def saysSucceeded (r : Record) : Bool := r.beginsWith "parsing success"

/-- The last record gives the reason for a rejection, to those who look for the cause of an error.
No other record says that the text was rejected, and none says that it was not. -/
structure ReportsRejection (records : List Record) (e : ParseError) : Prop where
  last : records.getLast? = some (.debug "parser" ("parsing failed; " ++ e.message))
  once : records.countP saysFailed = 1
  never : ∀ r ∈ records, saysSucceeded r = false

/-! ## Readings that stop -/

theorem says_of_mem_closingRecords {closings : List Char} {r : Record}
    (h : r ∈ closingRecords closings) : saysFailed r = false ∧ saysSucceeded r = false := by
  obtain ⟨c, -, rfl⟩ := List.mem_map.1 h
  have hfront : ∀ opening : String, opening.toList.length ≤ 15 →
      (note s!"sub-term parsing success; closed by {String.ofList (Text.quoted [c])}").beginsWith
        opening = opening.toList.isPrefixOf "sub-term parsing success; closed by ".toList :=
    fun opening hopening ↦ beginsWith_note (Nat.le_trans hopening (by decide)) _
  exact ⟨(hfront _ (by decide)).trans (by decide), (hfront _ (by decide)).trans (by decide)⟩

/-- The record of a rejection gives the reason, unless the host has given up. -/
theorem rejection_eq_note {e : ParseError} (he : e ≠ .tooDeepToFollow) :
    rejection e = note ("parsing failed; " ++ e.message) := by
  cases e with
  | tooDeepToFollow => exact absurd rfl he
  | _ => rfl

/-- **After the closings there is one record, with the reason.** -/
theorem reportsRejection_closings (closings : List Char) {e : ParseError}
    (he : e ≠ .tooDeepToFollow) :
    ReportsRejection (closingRecords closings ++ [rejection e]) e := by
  have hfailed : saysFailed (note ("parsing failed; " ++ e.message)) = true :=
    (beginsWith_note (by decide) _).trans (by decide)
  have hsucceeded : saysSucceeded (note ("parsing failed; " ++ e.message)) = false :=
    (beginsWith_note (by decide) _).trans (by decide)
  have hclosings : (closingRecords closings).countP saysFailed = 0 :=
    List.countP_eq_zero.2 fun r hr ↦ by simp [(says_of_mem_closingRecords hr).1]
  rw [rejection_eq_note he]
  constructor
  · rw [List.getLast?_concat]
    rfl
  · rw [List.countP_append, hclosings, List.countP_singleton, if_pos hfailed]
  · intro r hr
    rcases List.mem_append.1 hr with hr | hr
    · exact (says_of_mem_closingRecords hr).2
    · rw [List.mem_singleton.1 hr]
      exact hsucceeded

/-! ## The ways in which a text is read -/

variable {ctx : Context}

/-- **A list of tokens is read in one of three ways**: it is rejected, it calls a function whose
arity cannot be counted to, or it is an expression. -/
theorem readTokens_cases (ctx : Context) (ts : List Token) :
    (∃ closings e, readTokens ctx ts =
        ⟨closingRecords closings ++ [rejection e], .error (.rejected e)⟩) ∨
      (∃ closings f, readTokens ctx ts = ⟨closingRecords closings, .error (.uncounted f)⟩) ∨
      ∃ closings e, readTokens ctx ts = ⟨closingRecords closings, .ok e⟩ := by
  have hstopped : ∀ stop : Stop,
      (∃ closings e, @stopped Expr stop =
          ⟨closingRecords closings ++ [rejection e], .error (.rejected e)⟩) ∨
        ∃ closings f, @stopped Expr stop = ⟨closingRecords closings, .error (.uncounted f)⟩ := by
    rintro ⟨closings, e | f⟩
    · exact .inl ⟨closings, e, rfl⟩
    · exact .inr ⟨closings, f, rfl⟩
  rw [readTokens]
  split
  · exact or_assoc.1 (.inl (hstopped _))
  · split
    · exact or_assoc.1 (.inl (hstopped _))
    · split
      · exact or_assoc.1 (.inl (hstopped _))
      · exact .inr (.inr ⟨_, _, rfl⟩)

/-- A text that is not too long is read like that, or has no tokens.  Instead of calling such a
function, it may be an expression that the host has no room to group. -/
theorem parse_cases {text : String} (hlength : (text.length : Int) ≤ ctx.dialect.maxLength) :
    parse ctx text = ⟨[note "parsing finished; empty input"], .ok none⟩ ∨
      (∃ closings e, parse ctx text =
        ⟨closingRecords closings ++ [rejection e], .error (.rejected e)⟩) ∨
      (∃ closings u, parse ctx text = ⟨closingRecords closings, .error u⟩ ∧
        ∀ e, u ≠ .rejected e) ∨
      ∃ closings e, parse ctx text =
        ⟨closingRecords closings ++ [note s!"parsing success: {e.text}"], .ok (some e)⟩ := by
  rw [parse, parseRaw, if_neg (Int.not_lt.2 hlength)]
  cases (Token.ofText ctx.dialect.strict text).dropLast with
  | nil => exact .inl rfl
  | cons t ts =>
    dsimp only
    obtain ⟨closings, e, h⟩ | ⟨closings, f, h⟩ | ⟨closings, e, h⟩ := readTokens_cases ctx (t :: ts)
    · exact .inr (.inl ⟨closings, e, by rw [h]; rfl⟩)
    · exact .inr (.inr (.inl ⟨closings, .uncounted f, by rw [h]; rfl, by simp⟩))
    · rw [h]
      cases hgroup : ctx.host.groupingFault? e with
      | some x =>
        refine .inr (.inr (.inl ⟨closings, .exhausted x, ?_, by simp⟩))
        simp only [Logged.map, Except.map, hgroup]
      | none =>
        refine .inr (.inr (.inr ⟨closings, e.group, ?_⟩))
        simp only [Logged.map, Except.map, hgroup]

/-- A text that is too long is not looked at. -/
theorem parse_of_tooLong {text : String} (hlength : ctx.dialect.maxLength < text.length) :
    parse ctx text = ⟨[], .error (.rejected (.tooLong ctx.dialect.maxLength))⟩ := by
  have hraw : parseRaw ctx text = ⟨[], .error (.rejected (.tooLong ctx.dialect.maxLength))⟩ := by
    rw [parseRaw, if_pos hlength]
  rw [parse, hraw]

theorem saysFailed_of_parse_ok {text : String} {e : Option Expr}
    (h : (parse ctx text).value = .ok e) :
    ∀ r ∈ (parse ctx text).records, saysFailed r = false := by
  rcases lt_or_ge ctx.dialect.maxLength text.length with hlength | hlength
  · rw [parse_of_tooLong hlength] at h
    cases h
  · obtain hread | ⟨closings, e, hread⟩ | ⟨closings, u, hread, -⟩ | ⟨closings, e, hread⟩ :=
      parse_cases hlength
    · rw [hread]
      decide
    · rw [hread] at h
      cases h
    · rw [hread] at h
      cases h
    · rw [hread]
      intro r hr
      rcases List.mem_append.1 hr with hr | hr
      · exact (says_of_mem_closingRecords hr).1
      · have hopening : "parsing failed".toList.length ≤ "parsing success: ".toList.length := by
          decide
        rw [List.mem_singleton.1 hr]
        exact (beginsWith_note hopening _).trans (by decide)

/-- **A rejection is reported exactly if the text is not too long.**  Let a text be rejected for
another reason than that the host has given up.  If it is within the limit for its length, then the
last record gives the reason, no other record says that the text was rejected, and none that it was
read well.  If it is longer, it is rejected for that, and nothing is reported at all.  A text that
is read leaves no record of a rejection. -/
theorem reportsRejection_parse_iff (ctx : Context) (text : String) :
    (∀ e, (parse ctx text).value = .error (.rejected e) → e ≠ .tooDeepToFollow →
      (ReportsRejection (parse ctx text).records e ↔
        (text.length : Int) ≤ ctx.dialect.maxLength)) ∧
      (ctx.dialect.maxLength < text.length →
        (parse ctx text).value = .error (.rejected (.tooLong ctx.dialect.maxLength)) ∧
          (parse ctx text).records = []) ∧
      ∀ e, (parse ctx text).value = .ok e →
        ∀ r ∈ (parse ctx text).records, saysFailed r = false := by
  refine ⟨fun e he hfollow ↦ ?_, fun hlength ↦ ?_, fun e he ↦ saysFailed_of_parse_ok he⟩
  · rcases lt_or_ge ctx.dialect.maxLength text.length with hlength | hlength
    · refine iff_of_false (fun h ↦ ?_) (Int.not_le.2 hlength)
      rw [parse_of_tooLong hlength] at h
      cases h.last
    · refine iff_of_true ?_ hlength
      obtain hread | ⟨closings, e', hread⟩ | ⟨closings, u, hread, hu⟩ | ⟨closings, e', hread⟩ :=
        parse_cases hlength
      · rw [hread] at he
        cases he
      · rw [hread] at he ⊢
        cases he
        exact reportsRejection_closings closings hfollow
      · rw [hread] at he
        exact absurd (Except.error.inj he) (hu e)
      · rw [hread] at he
        cases he
  · rw [parse_of_tooLong hlength]
    exact ⟨rfl, rfl⟩

/-- A group is closed, and then an operand is missing. -/
theorem reportsRejection_parse_trailing :
    (parse Grammar.standardContext "(1 + 2) *").value = .error (.rejected .trailingOperator) ∧
      ReportsRejection (parse Grammar.standardContext "(1 + 2) *").records .trailingOperator := by
  have hread : (parse Grammar.standardContext "(1 + 2) *").value =
      .error (.rejected .trailingOperator) := eq_of_error? (by decide +kernel)
  exact ⟨hread, ((reportsRejection_parse_iff Grammar.standardContext "(1 + 2) *").1 _ hread
    (by simp)).2 (by decide)⟩

/-- A numeral that is longer than texts may be. -/
def oversized : String := String.ofList (List.replicate 10001 '1')

/-- Being rejected is not enough to be reported. -/
theorem not_reportsRejection_oversized :
    (parse Grammar.standardContext oversized).value = .error (.rejected (.tooLong 10000)) ∧
      (parse Grammar.standardContext oversized).records = [] ∧
      ¬ ReportsRejection (parse Grammar.standardContext oversized).records (.tooLong 10000) := by
  have hchars : oversized.toList = List.replicate 10001 '1' := String.toList_ofList
  have hlength : oversized.length = 10001 := by
    rw [← String.length_toList, hchars, List.length_replicate]
  have hlong : Grammar.standardContext.dialect.maxLength < oversized.length := by
    rw [hlength]
    decide
  rw [parse_of_tooLong hlong]
  exact ⟨rfl, rfl, fun h ↦ by cases h.last⟩

end Parser

end Formula
