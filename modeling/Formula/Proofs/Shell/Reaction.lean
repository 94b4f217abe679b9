import Formula.Proofs.Shell

/-!
# Reactions of the shell

Whoever types a line that is not blank expects to see something before the next prompt, be it only
an empty line, or the farewell.  Which lines are disappointed is the subject of this file.

* `Reacts sh line` — the shell ends the session with the farewell, or prints at least one line and
  goes on.
* `reacts_iff_lines` — what is printed for a line can be told from the text of the session, so this
  is a matter of the response.
* `Ignores sh line` — the lines that are commands without a response, and those that break the
  session off.
* `reacts_iff` — the main result: `quit` or `exit` with something after it is the one line that a
  standard calculator leaves without a reaction, as long as the host has room.
-/

set_option autoImplicit false

namespace Formula.Shell

open Log

variable {sh : Shell} {line : String}

/-! ## What is seen of a response -/

/-- The shell ends the session with the farewell after this line, or prints something in response
and goes on, whatever follows. -/
inductive Reacts (sh : Shell) (line : String) : Prop
  | ends :
      (∀ rest, (sh.dialogue (some line :: rest)).value = .ok (prompt ++ printed [farewell])) →
      Reacts sh line
  | prints {out : List String} {next : Shell} :
      out ≠ [] →
      (∀ rest, (sh.dialogue (some line :: rest)).value =
        behind (prompt ++ printed out) (next.dialogue rest).value) →
      Reacts sh line

theorem length_printed_pos {out : List String} (h : out ≠ []) : 0 < (printed out).length := by
  obtain ⟨first, rest, rfl⟩ := List.exists_cons_of_ne_nil h
  have hnewline : "\n".length = 1 := by decide
  simp only [printed, List.map_cons, String.join_cons, String.length_append]
  omega

/-- **Nothing ends the session but the farewell.** -/
theorem eq_farewell_of_respond {out : List String}
    (h : (sh.respond line.toList).value = .ok ⟨out, none⟩) : out = [farewell] := by
  cases hend : isFarewell (Text.strip line.toList) with
  | true =>
    rw [respond_of_isFarewell hend] at h
    exact congrArg Response.lines (Except.ok.inj h).symm
  | false => cases next_of_respond hend h

/-- **The shell reacts to a line exactly if there is a response with a line in it.**  What follows
the line shows it, in particular the end of the input. -/
theorem reacts_iff_lines :
    sh.Reacts line ↔ ∃ r, (sh.respond line.toList).value = .ok r ∧ r.lines ≠ [] := by
  constructor
  · intro h
    cases hvalue : (sh.respond line.toList).value with
    | error escape =>
      have herror := dialogue_of_error hvalue [none]
      cases h with
      | ends hends => cases (hends [none]).symm.trans herror
      | prints _ hprints => cases (hprints [none]).symm.trans herror
    | ok r =>
      refine ⟨r, rfl, ?_⟩
      obtain ⟨out, next⟩ := r
      cases next with
      | none =>
        rw [eq_farewell_of_respond hvalue]
        exact List.cons_ne_nil _ _
      | some next =>
        have hnext : (sh.dialogue [some line]).value =
            .ok (prompt ++ printed out ++ (prompt ++ parting)) := dialogue_of_next hvalue []
        rintro rfl
        cases h with
        | ends hends =>
          have htext := Except.ok.inj ((hends []).symm.trans hnext)
          exact absurd htext (by decide)
        | @prints out' next' hout hprints =>
          have htext : prompt ++ printed out' ++ (prompt ++ parting) =
              prompt ++ printed [] ++ (prompt ++ parting) :=
            Except.ok.inj ((hprints []).symm.trans hnext)
          have hlength := congrArg String.length htext
          have hpos := length_printed_pos hout
          have hnothing : (printed []).length = 0 := by decide
          simp only [String.length_append] at hlength
          omega
  · rintro ⟨⟨out, next⟩, hvalue, hout⟩
    cases next with
    | none =>
      obtain rfl := eq_farewell_of_respond hvalue
      exact .ends (dialogue_of_end hvalue)
    | some next => exact .prints hout (dialogue_of_next hvalue)

/-! ## Lines without a reaction -/

/-- The line is `quit` or `exit` with something after it, asks for the functions of a calculator
that has none, or breaks the session off. -/
inductive Ignores (sh : Shell) (line : List Char) : Prop
  | idle : Command.ofLine? line = some .idle → Ignores sh line
  | functions :
      Command.ofLine? line = some .functions → sh.calculator.functions.declarations = [] →
      Ignores sh line
  | breaks {escape : Calculator.Escape} : sh.Breaks line escape → Ignores sh line

theorem answerLines_ne_nil (json showTree : Bool) (a : Answer) :
    answerLines json showTree a ≠ [] := by
  unfold answerLines
  split
  · simp
  · split <;> simp

theorem respondScale_lines_ne_nil (argument : List Char) :
    (sh.respondScale argument).lines ≠ [] := by
  unfold respondScale
  dsimp only
  split
  · simp
  · split
    · simp
    · split <;> simp

theorem respondTree_lines_ne_nil {expression : List Char} {r : Response}
    (h : (sh.respondTree expression).value = .ok r) : r.lines ≠ [] := by
  rw [respondTree, Logged.map] at h
  dsimp only at h
  split at h
  · rename_i e _
    cases hshown : sh.calculator.shown e with
    | error x => rw [hshown] at h; cases h
    | ok text =>
      rw [hshown] at h
      cases h
      exact List.cons_ne_nil _ _
  all_goals
    cases h
  all_goals exact List.cons_ne_nil _ _

/-- The commands that nothing is printed for. -/
theorem respondCommand_lines_eq_nil_iff {command : Command} {r : Response}
    (h : (sh.respondCommand command).value = .ok r) :
    r.lines = [] ↔ command = .idle ∨
      command = .functions ∧ sh.calculator.functions.declarations = [] := by
  cases command with
  | help =>
    cases h
    exact iff_of_false (List.cons_ne_nil _ _) (by simp)
  | functions =>
    cases h
    simp
  | scale argument =>
    obtain rfl : sh.respondScale argument = r := Except.ok.inj h
    exact iff_of_false (respondScale_lines_ne_nil argument) (by simp)
  | tree expression => exact iff_of_false (respondTree_lines_ne_nil h) (by simp)
  | idle =>
    cases h
    simp

/-- **A line has a response exactly if it is not ignored.** -/
theorem respond_lines_iff {cs : List Char} (hne : Text.strip cs ≠ [])
    (hgoes : isFarewell (Text.strip cs) = false) :
    (∃ r, (sh.respond cs).value = .ok r ∧ r.lines ≠ []) ↔ ¬ sh.Ignores (Text.strip cs) := by
  cases hvalue : (sh.respond cs).value with
  | error escape =>
    refine iff_of_false (by simp) (not_not_intro ?_)
    exact .breaks ((respond_eq_error_iff hgoes).1 hvalue)
  | ok r =>
    have hbreaks : ∀ {escape}, ¬ sh.Breaks (Text.strip cs) escape := by
      intro escape h
      cases hvalue.symm.trans ((respond_eq_error_iff hgoes).2 h)
    have hlines : r.lines = [] ↔ sh.Ignores (Text.strip cs) := by
      obtain hempty | ⟨command, hcommand⟩ | hexpression := line_cases cs
      · exact absurd hempty hne
      · rw [respond_of_command hgoes hcommand] at hvalue
        rw [respondCommand_lines_eq_nil_iff hvalue]
        constructor
        · rintro (rfl | ⟨rfl, hnone⟩)
          · exact .idle hcommand
          · exact .functions hcommand hnone
        · rintro (hidle | ⟨hfunctions, hnone⟩ | h)
          · exact .inl (Option.some.inj (hcommand.symm.trans hidle))
          · exact .inr ⟨Option.some.inj (hcommand.symm.trans hfunctions), hnone⟩
          · exact absurd h hbreaks
      · rw [respond_of_isExpression hgoes hexpression, respondExpression_eq] at hvalue
        have hnone := ofLine?_strip_eq_none_iff.2 hexpression.2
        refine iff_of_false ?_ ?_
        · cases hevaluate :
              (sh.calculator.evaluate (some (String.ofList (Text.strip cs)))).value with
          | error e => rw [hevaluate] at hvalue; cases hvalue
          | ok a =>
            rw [hevaluate] at hvalue
            cases hvalue
            exact answerLines_ne_nil _ _ a
        · rintro (hidle | ⟨hfunctions, -⟩ | h)
          · cases hnone.symm.trans hidle
          · cases hnone.symm.trans hfunctions
          · exact hbreaks h
    rw [← hlines]
    simp

/-! ## All lines -/

/-- A line is idle exactly if its first word is `quit` or `exit`. -/
theorem ofLine?_eq_idle_iff {line : List Char} :
    Command.ofLine? line = some .idle ↔ firstWord line = "quit" ∨ firstWord line = "exit" := by
  rw [ofLine?_eq]
  unfold Command.ofWord?
  split <;> simp_all

/-- With the built-in functions there is always something to list, and no line breaks a session off
but for want of room. -/
theorem ignores_iff_of_builtins {line : List Char}
    (hbuiltins : sh.calculator.functions = .builtins sh.calculator.arithmetic) :
    sh.Ignores line ↔ firstWord line ∈ ["quit", "exit"] ∨ ∃ x, sh.Breaks line (.exhausted x) := by
  have hword : firstWord line ∈ ["quit", "exit"] ↔ Command.ofLine? line = some .idle := by
    rw [ofLine?_eq_idle_iff]
    simp
  rw [hword]
  constructor
  · rintro (hidle | ⟨-, hnone⟩ | hbreaks)
    · exact .inl hidle
    · rw [hbuiltins] at hnone
      cases hnone
    · obtain ⟨x, rfl⟩ := hbreaks.exhausted hbuiltins
      exact .inr ⟨x, hbreaks⟩
  · rintro (hidle | ⟨x, hbreaks⟩)
    · exact .idle hidle
    · exact .breaks hbreaks

/-- **The lines that the shell reacts to.**  For every line that is not blank, the shell ends the
session with the farewell or prints at least one line before the next prompt, unless the line is
ignored.  If the calculator has the built-in functions and no others, then the lines that are
ignored are those that begin with the word `quit` or `exit` and go on after it, and those that the
host has no room for and that break the session off. -/
theorem reacts_iff (sh : Shell) {line : String} (hne : Text.strip line.toList ≠ []) :
    (sh.Reacts line ↔
      isFarewell (Text.strip line.toList) ∨ ¬ sh.Ignores (Text.strip line.toList)) ∧
    (sh.calculator.functions = .builtins sh.calculator.arithmetic →
      (sh.Reacts line ↔ isFarewell (Text.strip line.toList) ∨
        firstWord (Text.strip line.toList) ∉ ["quit", "exit"] ∧
          ∀ x, ¬ sh.Breaks (Text.strip line.toList) (.exhausted x))) := by
  have hreacts : sh.Reacts line ↔
      isFarewell (Text.strip line.toList) ∨ ¬ sh.Ignores (Text.strip line.toList) := by
    rw [reacts_iff_lines]
    cases hend : isFarewell (Text.strip line.toList) with
    | true => exact iff_of_true ⟨_, respond_of_isFarewell hend, List.cons_ne_nil _ _⟩ (.inl rfl)
    | false => simpa using respond_lines_iff hne hend
  refine ⟨hreacts, fun hbuiltins ↦ ?_⟩
  rw [hreacts, ignores_iff_of_builtins hbuiltins, not_or, not_exists]

/-- `tree` without an argument is calculated, and `Quit` between blanks ends the session. -/
theorem reacts_iff_bareTree :
    Text.strip " TREE".toList ≠ [] ∧ Text.strip "\tQuit ".toList ≠ [] ∧
      Reacts ⟨.standardOn .native, false, false⟩ " TREE" ∧
      Reacts ⟨.standardOn .native, true, true⟩ "\tQuit " := by
  have htree : Text.strip " TREE".toList ≠ [] := by decide
  have hquit : Text.strip "\tQuit ".toList ≠ [] := by decide
  have hroom : ∀ x, ¬ Breaks ⟨.standardOn .native, false, false⟩ (Text.strip " TREE".toList)
      (.exhausted x) :=
    fun x ↦ not_breaks_of_fits rfl Calculator.fits_standardOn_native _ _
  exact ⟨htree, hquit, ((reacts_iff _ htree).2 rfl).2 (.inr ⟨by decide +kernel, hroom⟩),
    ((reacts_iff _ hquit).2 rfl).2 (.inl (by decide +kernel))⟩

/-- Not being blank is not enough: the line `exit 1` neither ends the session nor is it answered. -/
theorem not_reacts_exit :
    Text.strip "exit 1".toList ≠ [] ∧
      ¬ Reacts ⟨.standardOn .native, false, false⟩ "exit 1" ∧
      (transcript ⟨.standardOn .native, false, false⟩ [some "exit 1", some "quit"]).value =
        .ok (printed [banner] ++ prompt ++ prompt ++ printed [farewell]) := by
  have hne : Text.strip "exit 1".toList ≠ [] := by decide
  refine ⟨hne, fun h ↦ ?_, rfl⟩
  rcases ((reacts_iff _ hne).2 rfl).1 h with hend | ⟨hword, -⟩
  · exact absurd hend (by decide +kernel)
  · exact absurd hword (by decide +kernel)

end Formula.Shell
