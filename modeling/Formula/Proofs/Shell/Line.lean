import Formula.Proofs.Answer
import Formula.Shell
import Mathlib.Data.List.Basic

/-!
# Lines of the shell

What the shell does with a line is a matter of the words of the line and of the calculator.  This
file says what one line does; what becomes of a whole session follows from it.

* `IsExpression`, `scaleSet?` — the lines that are calculated, and those that set a scale, told from
  their words alone.
* `readInt?_of_isDigit` — which rows of digits are numbers.
* `Breaks` — the lines that break a session off, and `respond_eq_error_iff`, that there are no
  others.
* `next_of_respond`, `turn_of_respond` — what any other line does: it sets the scale at most, and an
  expression is answered by the calculator.
-/

set_option autoImplicit false

namespace Formula.Shell

open Log

/-! ## Words -/

/-- The words that a command begins with. -/
def commandWords : List String := ["help", "functions", "scale", "tree", "quit", "exit"]

/-- A text in lower case. -/
def lowered (cs : List Char) : String := String.ofList (cs.map Text.lower)

/-- The first word of a line, up to the first space, in lower case. -/
def firstWord (line : List Char) : String := lowered (line.takeWhile (· != ' '))

/-- What follows the first space of a line, without the blanks at its ends. -/
def argumentOf (line : List Char) : List Char :=
  Text.strip ((line.dropWhile (· != ' ')).drop 1)

theorem ofLine?_eq (line : List Char) :
    Command.ofLine? line = Command.ofWord? (firstWord line) (argumentOf line) := by
  rw [Command.ofLine?, List.span_eq_takeWhile_dropWhile]
  rfl

theorem ofWord?_eq_none_iff {word : String} {argument : List Char} :
    Command.ofWord? word argument = none ↔
      word ∉ commandWords ∨ word = "tree" ∧ argument = [] := by
  unfold Command.ofWord?
  split <;> simp_all [commandWords]

/-- The last character of a text without blanks at its ends is none. -/
theorem isBlank_of_getLast?_strip {cs : List Char} {c : Char}
    (h : (Text.strip cs).getLast? = some c) : Text.isBlank c = false := by
  rw [Text.strip, Text.trim, List.getLast?_reverse] at h
  have hhead := List.head?_dropWhile_not Text.isBlank (cs.dropWhile Text.isBlank).reverse
  rw [h] at hhead
  simpa using hhead

/-- A space in a text without blanks at its ends has something after it. -/
theorem argumentOf_strip_eq_nil_iff {cs : List Char} :
    argumentOf (Text.strip cs) = [] ↔ ' ' ∉ Text.strip cs := by
  have hcut := List.takeWhile_append_dropWhile (p := (· != ' ')) (l := Text.strip cs)
  have hhead := List.head?_dropWhile_not (· != ' ') (Text.strip cs)
  rw [argumentOf]
  cases hrest : (Text.strip cs).dropWhile (· != ' ') with
  | nil =>
    have hspace := Text.dropWhile_eq_nil_iff.1 hrest
    exact iff_of_true rfl fun hmem ↦ by simpa using hspace ' ' hmem
  | cons c rest =>
    rw [hrest] at hcut hhead
    obtain rfl : c = ' ' := by simpa using hhead
    refine iff_of_false (fun hblank ↦ ?_) (not_not_intro ?_)
    · obtain ⟨c, hlast⟩ : ∃ c, (' ' :: rest).getLast? = some c :=
        ⟨_, List.getLast?_eq_some_getLast (List.cons_ne_nil _ _)⟩
      have hstrip : (Text.strip cs).getLast? = some c := by
        rw [← hcut, List.getLast?_append, hlast, Option.some_or]
      have hall : Text.isBlank c := by
        obtain rfl | hmem := List.mem_cons.1 (List.mem_of_getLast? hlast)
        · rfl
        · exact Text.strip_eq_nil_iff.1 hblank c hmem
      rw [isBlank_of_getLast?_strip hstrip] at hall
      cases hall
    · rw [← hcut]
      exact List.mem_append_right _ List.mem_cons_self

theorem firstWord_of_not_mem {line : List Char} (h : ' ' ∉ line) :
    firstWord line = lowered line := by
  have hword : ∀ c ∈ line, (c != ' ') = true := by
    rintro c hc
    exact bne_iff_ne.2 fun hspace ↦ h (hspace ▸ hc)
  rw [firstWord, List.takeWhile_eq_self_iff.2 hword]

theorem not_mem_of_lowered {line : List Char} {word : String} (hword : ' ' ∉ word.toList)
    (h : lowered line = word) : ' ' ∉ line := by
  intro hmem
  rw [← h, lowered, String.toList_ofList] at hword
  exact hword (List.mem_map.2 ⟨' ', hmem, rfl⟩)

/-- The line is calculated: it is not blank, and it is no command. -/
def IsExpression (line : List Char) : Prop :=
  line ≠ [] ∧ (firstWord line ∉ commandWords ∨ lowered line = "tree")

instance (line : List Char) : Decidable (IsExpression line) :=
  inferInstanceAs (Decidable (_ ∧ _))

/-- **A line is no command exactly if its first word is none, or it is `tree` alone.** -/
theorem ofLine?_strip_eq_none_iff {cs : List Char} :
    Command.ofLine? (Text.strip cs) = none ↔
      firstWord (Text.strip cs) ∉ commandWords ∨ lowered (Text.strip cs) = "tree" := by
  rw [ofLine?_eq, ofWord?_eq_none_iff, argumentOf_strip_eq_nil_iff]
  refine or_congr_right ⟨?_, fun h ↦ ?_⟩
  · rintro ⟨hword, hspace⟩
    rwa [← firstWord_of_not_mem hspace]
  · have hspace := not_mem_of_lowered (by decide) h
    exact ⟨(firstWord_of_not_mem hspace).trans h, hspace⟩

/-! ## Numbers -/

theorem digitValue?_of_isDigit {c : Char} (h : c.isDigit) :
    Text.digitValue? c = some (c.toNat - 0x30) := by
  obtain ⟨hlower, hupper⟩ := Digits.toNat_of_isDigit h
  have hzeros : Text.digitZeros = 0x30 :: Text.digitZeros.tail := rfl
  rw [Text.digitValue?, hzeros, List.find?_cons_of_pos]
  · rfl
  · simp only [Bool.and_eq_true, decide_eq_true_eq]
    omega

theorem digitTail?_of_isDigit {cs : List Char} (h : ∀ c ∈ cs, c.isDigit) :
    Text.digitTail? cs = some (cs.map fun c ↦ c.toNat - 0x30, []) := by
  induction cs with
  | nil => rfl
  | cons c cs ih =>
    obtain ⟨hc, hcs⟩ := List.forall_mem_cons.1 h
    have hunderscore : c ≠ '_' := by
      rintro rfl
      exact absurd hc (by decide)
    unfold Text.digitTail?
    split
    · contradiction
    · simp_all
    · simp_all
    · rename_i heq
      cases heq
      rw [digitValue?_of_isDigit hc, ih hcs]
      rfl

/-- Digits and nothing else are a number if the host allows so many of them. -/
theorem readInt?_of_isDigit {cs : List Char} (hne : cs ≠ []) (h : ∀ c ∈ cs, c.isDigit)
    (maxDigits : Option Nat) : Text.readInt? maxDigits cs =
      if (maxDigits.filter (· < cs.length)).isSome then none
      else some (Text.ofDigits (cs.map fun c ↦ c.toNat - 0x30)) := by
  have hblank : ∀ c ∈ cs, Text.isPadding c = false := by
    intro c hc
    rw [Text.isPadding, Grammar.not_isBlank_of_isDigit (h c hc), Bool.false_and]
  have htrim : Text.trim Text.isPadding cs = cs :=
    Text.trim_eq_self (fun c hc ↦ hblank c (List.mem_of_head? hc))
      (fun c hc ↦ hblank c (List.mem_of_getLast? hc))
  obtain ⟨c, ds, rfl⟩ := List.exists_cons_of_ne_nil hne
  obtain ⟨hc, hds⟩ := List.forall_mem_cons.1 h
  have hrun : Text.digitRun? (c :: ds) = some ((c :: ds).map fun c ↦ c.toNat - 0x30, []) := by
    rw [Text.digitRun?, digitValue?_of_isDigit hc, digitTail?_of_isDigit hds]
    rfl
  have hsign : c ≠ '-' ∧ c ≠ '+' := by
    constructor
    all_goals
      rintro rfl
      exact absurd hc (by decide)
  rw [Text.readInt?, Text.readInt, htrim]
  split
  rename_i negative unsigned hsigned
  obtain ⟨rfl, rfl⟩ : negative = false ∧ unsigned = c :: ds := by
    split at hsigned <;> simp_all
  rw [hrun]
  dsimp only
  rw [List.length_map]
  cases maxDigits.filter (· < (c :: ds).length) <;> rfl

/-- The scale that a line sets: `scale` and a whole number that is not negative, and that has no
more digits than the host allows. -/
def scaleSet? (maxDigits : Option Nat) (line : List Char) : Option Nat :=
  if firstWord line = "scale" then (Text.readInt? maxDigits (argumentOf line)).bind Int.toNat?
  else none

/-- The scale that a command sets. -/
def Command.scale? (maxDigits : Option Nat) : Command → Option Nat
  | .scale argument => (Text.readInt? maxDigits argument).bind Int.toNat?
  | _ => none

theorem scaleSet?_eq (maxDigits : Option Nat) (line : List Char) :
    scaleSet? maxDigits line = (Command.ofLine? line).bind (Command.scale? maxDigits) := by
  rw [ofLine?_eq, scaleSet?]
  by_cases hword : firstWord line = "scale"
  · rw [if_pos hword, hword]
    rfl
  · rw [if_neg hword]
    unfold Command.ofWord?
    split
    case h_3 hscale => exact absurd hscale hword
    case h_4 => split <;> rfl
    all_goals rfl

/-- A line asks for the tree of an expression exactly if its first word is `tree` and there is
something after it. -/
theorem ofLine?_eq_tree_iff {line expression : List Char} :
    Command.ofLine? line = some (.tree expression) ↔
      firstWord line = "tree" ∧ argumentOf line = expression ∧ expression ≠ [] := by
  rw [ofLine?_eq]
  unfold Command.ofWord?
  split
  case h_4 =>
    split
    · simp_all
    · simp_all only [List.isEmpty_iff, Option.some.injEq, Command.tree.injEq, true_and]
      exact ⟨fun h ↦ ⟨h, h ▸ by assumption⟩, And.left⟩
  all_goals simp_all

/-! ## One line -/

/-- The shell at another scale. -/
def atScale (sh : Shell) (n : Nat) : Shell :=
  { sh with calculator := { sh.calculator with scale := n } }

variable {sh : Shell}

@[simp]
theorem scale_atScale (n : Nat) : (sh.atScale n).calculator.scale = n := rfl

@[simp]
theorem host_atScale (n : Nat) : (sh.atScale n).calculator.host = sh.calculator.host := rfl

@[simp]
theorem atScale_atScale (m n : Nat) : (sh.atScale m).atScale n = sh.atScale n := rfl

/-- The scale after a line, if the shell goes on: the one that the line sets, or the same as before.
-/
def scaleFrom (maxDigits : Option Nat) (start : Nat) (line : String) : Nat :=
  (scaleSet? maxDigits (Text.strip line.toList)).getD start

/-- The shell after a line, if it goes on. -/
def after (sh : Shell) (line : String) : Shell :=
  sh.atScale (scaleFrom sh.calculator.host.maxDigits sh.calculator.scale line)

/-- A scale that is refused, by the reader of numbers or by the calculator, is not set. -/
theorem next_respondScale (argument : List Char) :
    (sh.respondScale argument).next = some (sh.atScale
      (((Text.readInt? sh.calculator.host.maxDigits argument).bind Int.toNat?).getD
        sh.calculator.scale)) := by
  rw [respondScale]
  cases argument with
  | nil => rfl
  | cons c cs =>
    dsimp only [List.isEmpty_cons]
    cases hread : Text.readInt? sh.calculator.host.maxDigits (c :: cs) with
    | none => rfl
    | some n => cases n <;> rfl

/-- A text that the reader of numbers refuses is no scale. -/
theorem respondScale_of_unread {argument : List Char} (hne : argument ≠ [])
    (h : Text.readInt? sh.calculator.host.maxDigits argument = none) :
    sh.respondScale argument =
      ⟨["Error: invalid scale " ++ String.ofList (Text.quoted argument)], some sh⟩ := by
  rw [respondScale]
  dsimp only
  rw [if_neg (by simpa using hne), h]

/-- **A command sets the scale at most**, if it is responded to. -/
theorem respondCommand_ok {command : Command} {r : Response}
    (h : (sh.respondCommand command).value = .ok r) :
    r.next = some (sh.atScale
      ((command.scale? sh.calculator.host.maxDigits).getD sh.calculator.scale)) := by
  cases command with
  | scale argument =>
    obtain rfl : sh.respondScale argument = r := Except.ok.inj h
    exact next_respondScale argument
  | tree expression =>
    rw [respondCommand, respondTree, Logged.map] at h
    dsimp only at h
    rcases hparse : (sh.calculator.parse (some (String.ofList expression))).value with
      (_ | _ | _) | _ | e
    case ok.some =>
      rw [hparse] at h
      dsimp only at h
      cases hshown : sh.calculator.shown e with
      | error x => rw [hshown] at h; cases h
      | ok text =>
        rw [hshown] at h
        cases h
        rfl
    all_goals
      rw [hparse] at h
      cases h
    all_goals rfl
  | help | functions | idle =>
    cases h
    rfl

/-! ## Lines that break a session off -/

/-- There is nothing to show for a text, neither an expression nor an error: it cannot be read or
grouped, or the host has no room to show its expression. -/
inductive Treeless (c : Calculator) (text : Option String) : Calculator.Escape → Prop
  | uncounted {f : String} : (c.parse text).value = .error (.uncounted f) →
      Treeless c text (.uncounted f)
  | grouping {x : Exhaustion} : (c.parse text).value = .error (.exhausted x) →
      Treeless c text (.exhausted x)
  | rendering {x : Exhaustion} : c.CannotShow text x → Treeless c text (.exhausted x)

theorem respondTree_eq_error_iff {expression : List Char} {escape : Calculator.Escape} :
    (sh.respondTree expression).value = .error escape ↔
      Treeless sh.calculator (some (String.ofList expression)) escape := by
  rw [respondTree, Logged.map]
  dsimp only
  constructor
  · intro h
    rcases hparse : (sh.calculator.parse (some (String.ofList expression))).value with
      (_ | f | x) | _ | e
    case error.uncounted =>
      rw [hparse] at h
      cases h
      exact .uncounted hparse
    case error.exhausted =>
      rw [hparse] at h
      cases h
      exact .grouping hparse
    case ok.some =>
      rw [hparse] at h
      dsimp only at h
      rw [Calculator.shown] at h
      cases hx : sh.calculator.host.renderingFault? e with
      | some x =>
        rw [hx] at h
        cases h
        exact .rendering ⟨e, hparse, hx⟩
      | none => rw [hx] at h; cases h
    all_goals
      rw [hparse] at h
      cases h
  · intro h
    cases h with
    | uncounted hparse => rw [hparse]
    | grouping hparse => rw [hparse]
    | rendering hshow =>
      obtain ⟨e, hparse, hx⟩ := hshow
      rw [hparse]
      dsimp only
      rw [Calculator.shown, hx]
      rfl

/-- The shell does not survive such a line: it asks for a tree and there is nothing to show, or it
is an expression that is left without an answer. -/
inductive Breaks (sh : Shell) (line : List Char) (escape : Calculator.Escape) : Prop
  | tree :
      firstWord line = "tree" → argumentOf line ≠ [] →
      Treeless sh.calculator (some (String.ofList (argumentOf line))) escape → Breaks sh line escape
  | expression :
      IsExpression line →
      (sh.calculator.evaluate (some (String.ofList line))).value = .error escape →
      Breaks sh line escape

theorem respond_of_command {line : List Char} {command : Command}
    (hfarewell : isFarewell (Text.strip line) = false)
    (h : Command.ofLine? (Text.strip line) = some command) :
    sh.respond line = sh.respondCommand command := by
  have hne : Text.strip line ≠ [] := by
    intro hempty
    rw [hempty] at h
    cases h
  rw [respond, if_neg (by simpa using hne), if_neg (by simp [hfarewell]), h]

section

variable {word argument : List Char} (hword : word ≠ [])
  (hwordBlank : word.any Text.isBlank = false) (hargument : argument ≠ [])
  (hargumentBlank : argument.any Text.isBlank = false)

include hword hwordBlank hargument hargumentBlank in
/-- A word, a space and what follows them are a command with an argument. -/
theorem respond_append {command : Command}
    (hcommand : Command.ofWord? (lowered word) argument = some command) :
    sh.respond (word ++ ' ' :: argument) = sh.respondCommand command := by
  have hwordBlank : ∀ c ∈ word, Text.isBlank c = false := by simpa using hwordBlank
  have hargumentBlank : ∀ c ∈ argument, Text.isBlank c = false := by simpa using hargumentBlank
  have hspace : ∀ c ∈ word, (c != ' ') = true := by
    rintro c hc
    refine bne_iff_ne.2 ?_
    rintro rfl
    cases hwordBlank ' ' hc
  have hstrip : Text.strip (word ++ ' ' :: argument) = word ++ ' ' :: argument := by
    refine Text.trim_eq_self (fun c hc ↦ hwordBlank c ?_) (fun c hc ↦ hargumentBlank c ?_)
    · rw [List.head?_append_of_ne_nil _ hword] at hc
      exact List.mem_of_head? hc
    · rw [List.getLast?_append_of_ne_nil _ (List.cons_ne_nil _ _),
        List.getLast?_cons_of_ne_nil hargument] at hc
      exact List.mem_of_getLast? hc
  have hargumentStrip : Text.strip argument = argument :=
    Text.trim_eq_self (fun c hc ↦ hargumentBlank c (List.mem_of_head? hc))
      (fun c hc ↦ hargumentBlank c (List.mem_of_getLast? hc))
  have hline : Command.ofLine? (word ++ ' ' :: argument) = some command := by
    rw [ofLine?_eq, firstWord, argumentOf, List.takeWhile_append_of_pos hspace,
      List.dropWhile_append_of_pos hspace, List.takeWhile_cons_of_neg (by decide),
      List.dropWhile_cons_of_neg (by decide), List.append_nil, List.drop_one, List.tail_cons,
      hargumentStrip, hcommand]
  have hfarewell : isFarewell (word ++ ' ' :: argument) = false := by
    have hmem : ' ' ∈ word ++ ' ' :: argument := List.mem_append_right _ List.mem_cons_self
    rw [Bool.eq_false_iff]
    intro h
    obtain h | h : lowered (word ++ ' ' :: argument) = "quit" ∨
        lowered (word ++ ' ' :: argument) = "exit" := by
      simpa [isFarewell, lowered] using h
    · exact not_mem_of_lowered (by decide) h hmem
    · exact not_mem_of_lowered (by decide) h hmem
  exact respond_of_command (by rw [hstrip, hfarewell]) (by rw [hstrip, hline])

end

theorem respond_of_isExpression {line : List Char}
    (hfarewell : isFarewell (Text.strip line) = false) (h : IsExpression (Text.strip line)) :
    sh.respond line = sh.respondExpression (Text.strip line) := by
  rw [respond, if_neg (by simpa using h.1), if_neg (by simp [hfarewell]),
    ofLine?_strip_eq_none_iff.2 h.2]

/-- A line is blank, a command or an expression. -/
theorem line_cases (cs : List Char) :
    Text.strip cs = [] ∨ (∃ command, Command.ofLine? (Text.strip cs) = some command) ∨
      IsExpression (Text.strip cs) := by
  by_cases hempty : Text.strip cs = []
  · exact .inl hempty
  · cases hcommand : Command.ofLine? (Text.strip cs) with
    | some command => exact .inr (.inl ⟨command, rfl⟩)
    | none => exact .inr (.inr ⟨hempty, ofLine?_strip_eq_none_iff.1 hcommand⟩)

theorem not_isExpression_of_command {cs : List Char} {command : Command}
    (h : Command.ofLine? (Text.strip cs) = some command) : ¬ IsExpression (Text.strip cs) := by
  intro hexpression
  rw [ofLine?_strip_eq_none_iff.2 hexpression.2] at h
  cases h

theorem respondExpression_eq (sh : Shell) (expression : List Char) :
    (sh.respondExpression expression).value =
      (sh.calculator.evaluate (some (String.ofList expression))).value.map
        fun a ↦ ⟨answerLines sh.json sh.showTree a, some sh⟩ := by
  rw [respondExpression, Logged.map]
  dsimp only
  cases (sh.calculator.evaluate (some (String.ofList expression))).value <;> rfl

/-- **A session is broken off by these lines alone.** -/
theorem respond_eq_error_iff {line : List Char} {escape : Calculator.Escape}
    (hfarewell : isFarewell (Text.strip line) = false) :
    (sh.respond line).value = .error escape ↔ sh.Breaks (Text.strip line) escape := by
  obtain hempty | ⟨command, hcommand⟩ | hexpression := line_cases line
  · refine iff_of_false (fun h ↦ ?_) (fun h ↦ ?_)
    · rw [respond, hempty] at h
      cases h
    · rw [hempty] at h
      cases h with
      | tree hword => exact absurd hword (by decide)
      | expression hexpression => exact hexpression.1 rfl
  · rw [respond_of_command hfarewell hcommand]
    have hnot := not_isExpression_of_command hcommand
    cases command with
    | tree expression =>
      obtain ⟨hword, rfl, hne⟩ := ofLine?_eq_tree_iff.1 hcommand
      rw [respondCommand, respondTree_eq_error_iff]
      refine ⟨.tree hword hne, fun h ↦ ?_⟩
      cases h with
      | tree _ _ h => exact h
      | expression h => exact absurd h hnot
    | help | functions | scale | idle =>
      refine iff_of_false nofun fun h ↦ ?_
      cases h with
      | tree hword hne _ => cases hcommand.symm.trans (ofLine?_eq_tree_iff.2 ⟨hword, rfl, hne⟩)
      | expression h => exact absurd h hnot
  · rw [respond_of_isExpression hfarewell hexpression, respondExpression_eq]
    have hnone := ofLine?_strip_eq_none_iff.2 hexpression.2
    constructor
    · intro h
      refine .expression hexpression ?_
      cases hvalue :
          (sh.calculator.evaluate (some (String.ofList (Text.strip line)))).value with
      | ok a => rw [hvalue] at h; cases h
      | error e =>
        rw [hvalue] at h
        cases h
        rfl
    · intro h
      cases h with
      | tree hword hne _ => cases hnone.symm.trans (ofLine?_eq_tree_iff.2 ⟨hword, rfl, hne⟩)
      | expression _ h => rw [h]; rfl

/-! ## Lines that are responded to -/

/-- **What one line does** that neither ends the session nor breaks it off: it sets the scale at
most. -/
theorem next_of_respond {line : String} {r : Response}
    (hfarewell : isFarewell (Text.strip line.toList) = false)
    (h : (sh.respond line.toList).value = .ok r) : r.next = some (sh.after line) := by
  rw [after, scaleFrom, scaleSet?_eq]
  obtain hempty | ⟨command, hcommand⟩ | hexpression := line_cases line.toList
  · rw [respond, hempty] at h
    obtain rfl := Except.ok.inj h
    rw [hempty]
    rfl
  · rw [respond_of_command hfarewell hcommand] at h
    rw [hcommand]
    exact respondCommand_ok h
  · rw [respond_of_isExpression hfarewell hexpression, respondExpression_eq] at h
    rw [ofLine?_strip_eq_none_iff.2 hexpression.2]
    cases hvalue :
        (sh.calculator.evaluate (some (String.ofList (Text.strip line.toList)))).value with
    | error e => rw [hvalue] at h; cases h
    | ok a =>
      rw [hvalue] at h
      obtain rfl := Except.ok.inj h
      rfl

/-- `quit` and `exit` end the session. -/
theorem respond_of_isFarewell {line : List Char} (h : isFarewell (Text.strip line)) :
    (sh.respond line).value = .ok ⟨[farewell], none⟩ := by
  have hempty : Text.strip line ≠ [] := by
    intro hempty
    rw [hempty] at h
    exact absurd h (by decide)
  rw [respond, if_neg (by simpa using hempty), if_pos h]
  rfl

/-- What a shell prints in response to a line that does not end the session. -/
structure Turn (sh : Shell) (line : String) (out : List String) : Prop where
  response : ∃ next, (sh.respond line.toList).value = .ok ⟨out, some next⟩
  /-- The line does not break the session off. -/
  survives : ∀ escape, ¬ sh.Breaks (Text.strip line.toList) escape
  /-- An expression is answered by what the calculator says to it without the blanks at its ends. -/
  answer : IsExpression (Text.strip line.toList) →
    ∃ a, (sh.calculator.evaluate (some (Text.stripped line))).value = .ok a ∧
      out = answerLines sh.json sh.showTree a

theorem turn_of_respond {line : String} {r : Response}
    (hfarewell : isFarewell (Text.strip line.toList) = false)
    (h : (sh.respond line.toList).value = .ok r) : sh.Turn line r.lines where
  response := by
    have hnext := next_of_respond hfarewell h
    obtain ⟨out, next⟩ := r
    obtain rfl : next = some (sh.after line) := hnext
    exact ⟨_, h⟩
  survives escape hbreaks := by
    rw [(respond_eq_error_iff hfarewell).2 hbreaks] at h
    cases h
  answer hexpression := by
    rw [respond_of_isExpression hfarewell hexpression, respondExpression_eq] at h
    cases hvalue : (sh.calculator.evaluate (some (Text.stripped line))).value with
    | error e =>
      rw [Text.stripped] at hvalue
      rw [hvalue] at h
      cases h
    | ok a =>
      rw [Text.stripped] at hvalue
      rw [hvalue] at h
      obtain rfl := Except.ok.inj h
      exact ⟨a, rfl, rfl⟩

end Formula.Shell
