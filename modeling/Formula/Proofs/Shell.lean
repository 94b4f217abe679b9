import Formula.Proofs.Outcome.Standard
import Formula.Proofs.Room.Towers
import Formula.Proofs.Shell.Line

/-!
# Sessions of the shell

A session is a row of independent calculations.  Of all that is said in it, only the scale is
remembered: every line is answered as if the shell had just been started, with the scale that was
set last (`scaleAfter`).  A line that the host has no room for can break the session off.

* `heard`, `closing` — the lines before the session ends, and what is printed at its end.
* `Prints`, `dialogue_spec` — what is printed in a session, line by line.
* `transcript_of_standard` — the main result, for the calculator that the shell starts with, and
  `not_transcript_paddedTwo`, two lines that there is no room for.
-/

set_option autoImplicit false

namespace Formula.Shell

open Log

variable {sh : Shell}

/-! ## The end of a session -/

/-- Does the input end the session here?  An interruption does, and so do `quit` and `exit`. -/
def isEnd : Option String → Bool
  | none => true
  | some line => isFarewell (Text.strip line.toList)

/-- The lines before the end of the session. -/
def heard (lines : List (Option String)) : List String :=
  (lines.takeWhile fun line ↦ !isEnd line).filterMap id

/-- What is printed at the end of the session.  Nobody has ended the last line if the input ends or
is interrupted. -/
def closing (lines : List (Option String)) : List String :=
  match lines.find? isEnd with
  | some (some _) => [farewell]
  | _ => ["", farewell]

theorem heard_of_isEnd {first : Option String} (h : isEnd first) (rest : List (Option String)) :
    heard (first :: rest) = [] := by
  rw [heard, List.takeWhile_cons_of_neg (by simp [h])]
  rfl

theorem heard_some {line : String} (h : isEnd (some line) = false) (rest : List (Option String)) :
    heard (some line :: rest) = line :: heard rest := by
  rw [heard, List.takeWhile_cons_of_pos (by simp [h])]
  rfl

theorem closing_of_isEnd {line : String} (h : isEnd (some line)) (rest : List (Option String)) :
    closing (some line :: rest) = [farewell] := by
  rw [closing, List.find?_cons_of_pos h]

theorem closing_cons {first : Option String} (h : isEnd first = false)
    (rest : List (Option String)) : closing (first :: rest) = closing rest := by
  rw [closing, List.find?_cons_of_neg (by simp [h])]
  rfl

/-! ## The scale in a session -/

/-- The scale after some lines: the one that was set last. -/
def scaleAfter (maxDigits : Option Nat) (start : Nat) (earlier : List String) : Nat :=
  (earlier.filterMap fun line ↦ scaleSet? maxDigits (Text.strip line.toList)).getLast?.getD start

theorem scaleAfter_cons (maxDigits : Option Nat) (start : Nat) (line : String)
    (earlier : List String) : scaleAfter maxDigits start (line :: earlier) =
      scaleAfter maxDigits (scaleFrom maxDigits start line) earlier := by
  rw [scaleAfter, scaleAfter, scaleFrom, List.filterMap_cons]
  cases scaleSet? maxDigits (Text.strip line.toList) with
  | none => rfl
  | some n =>
    dsimp only
    rw [List.getLast?_cons]
    rfl

/-- The shell after some lines. -/
def afterAll (sh : Shell) (earlier : List String) : Shell :=
  sh.atScale (scaleAfter sh.calculator.host.maxDigits sh.calculator.scale earlier)

theorem afterAll_after (sh : Shell) (line : String) (earlier : List String) :
    (sh.after line).afterAll earlier = sh.afterAll (line :: earlier) := by
  rw [afterAll, after, atScale_atScale, scale_atScale, host_atScale, ← scaleAfter_cons]
  rfl

/-! ## Sessions -/

/-- What is printed for lines that have been responded to. -/
def leaves (outputs : List (List String)) : String :=
  String.join (outputs.map fun out ↦ prompt ++ printed out)

/-- What is printed of a session whose lines have been responded to. -/
def pages (outputs : List (List String)) (last : List String) : String :=
  leaves outputs ++ (prompt ++ printed last)

theorem leaves_cons (out : List String) (outputs : List (List String)) :
    leaves (out :: outputs) = prompt ++ printed out ++ leaves outputs := by
  simp [leaves]

theorem pages_cons (out : List String) (outputs : List (List String)) (last : List String) :
    pages (out :: outputs) last = prompt ++ printed out ++ pages outputs last := by
  rw [pages, leaves_cons, String.append_assoc]
  rfl

section

variable {line : String} {out : List String}

theorem dialogue_of_next {next : Shell}
    (h : (sh.respond line.toList).value = .ok ⟨out, some next⟩) (rest : List (Option String)) :
    (sh.dialogue (some line :: rest)).value =
      behind (prompt ++ printed out) (next.dialogue rest).value := by
  rw [dialogue]
  dsimp only
  rw [h]

theorem dialogue_of_end (h : (sh.respond line.toList).value = .ok ⟨out, none⟩)
    (rest : List (Option String)) :
    (sh.dialogue (some line :: rest)).value = .ok (prompt ++ printed out) := by
  rw [dialogue]
  dsimp only
  rw [h]

theorem dialogue_of_error {escape : Calculator.Escape}
    (h : (sh.respond line.toList).value = .error escape) (rest : List (Option String)) :
    (sh.dialogue (some line :: rest)).value = .error ⟨escape, prompt⟩ := by
  rw [dialogue]
  dsimp only
  rw [h]

end

/-- The outputs for some lines are those of the shell at the scale of the moment. -/
structure Outputs (sh : Shell) (lines : List String) (outputs : List (List String)) : Prop where
  length_eq : outputs.length = lines.length
  turn : ∀ earlier line later, lines = earlier ++ line :: later →
    ∃ out, outputs[earlier.length]? = some out ∧ (sh.afterAll earlier).Turn line out

theorem Outputs.nil (sh : Shell) : sh.Outputs [] [] where
  length_eq := rfl
  turn earlier line later h := by simp at h

/-- Only the scale is handed on from a line to the next one. -/
theorem Outputs.cons {line : String} {lines : List String} {out : List String}
    {outputs : List (List String)} (hturn : sh.Turn line out)
    (h : (sh.after line).Outputs lines outputs) : sh.Outputs (line :: lines) (out :: outputs) where
  length_eq := by rw [List.length_cons, List.length_cons, h.length_eq]
  turn earlier line' later hlines := by
    cases earlier with
    | nil =>
      obtain ⟨rfl, -⟩ := List.cons.inj hlines
      exact ⟨out, rfl, hturn⟩
    | cons first earlier =>
      obtain ⟨rfl, hlater⟩ := List.cons.inj hlines
      obtain ⟨out', hout, hturn'⟩ := h.turn earlier line' later hlater
      rw [afterAll_after] at hturn'
      exact ⟨out', hout, hturn'⟩

/-- What is printed in a session. -/
inductive Prints (sh : Shell) (lines : List (Option String)) : Except Crash String → Prop
  /-- The outputs for all lines before the end of the session, and the farewell. -/
  | complete {outputs : List (List String)} :
      sh.Outputs (heard lines) outputs → Prints sh lines (.ok (pages outputs (closing lines)))
  /-- The outputs for the lines before the one that breaks the session off. -/
  | broken {earlier later : List String} {line : String} {outputs : List (List String)}
      {escape : Calculator.Escape} :
      heard lines = earlier ++ line :: later → sh.Outputs earlier outputs →
      (sh.afterAll earlier).Breaks (Text.strip line.toList) escape →
      Prints sh lines (.error ⟨escape, leaves outputs ++ prompt⟩)

/-- A line that is responded to is printed before the rest. -/
theorem Prints.cons {line : String} {rest : List (Option String)} {out : List String}
    {x : Except Crash String} (hgoes : isEnd (some line) = false) (hturn : sh.Turn line out)
    (h : (sh.after line).Prints rest x) :
    sh.Prints (some line :: rest) (behind (prompt ++ printed out) x) := by
  cases h with
  | @complete outputs houtputs =>
    have hall : sh.Prints (some line :: rest)
        (.ok (pages (out :: outputs) (closing (some line :: rest)))) :=
      .complete (by rw [heard_some hgoes]; exact .cons hturn houtputs)
    rw [pages_cons, closing_cons hgoes] at hall
    exact hall
  | @broken earlier later line' outputs escape hlines houtputs hbreaks =>
    have hheard : heard (some line :: rest) = (line :: earlier) ++ line' :: later := by
      rw [heard_some hgoes, hlines]
      rfl
    have hall : sh.Prints (some line :: rest)
        (.error ⟨escape, leaves (out :: outputs) ++ prompt⟩) :=
      .broken hheard (.cons hturn houtputs) (by rwa [← afterAll_after])
    rw [leaves_cons, String.append_assoc] at hall
    exact hall

/-- **What is printed in a session**: the outputs for the lines before its end, and the farewell,
unless one of the lines breaks it off. -/
theorem dialogue_spec (lines : List (Option String)) :
    ∀ sh : Shell, sh.Prints lines (sh.dialogue lines).value := by
  induction lines with
  | nil => exact fun sh ↦ @Prints.complete sh [] [] (.nil sh)
  | cons first rest ih =>
    intro sh
    cases first with
    | none => exact @Prints.complete sh (none :: rest) [] (.nil sh)
    | some line =>
      cases hend : isEnd (some line) with
      | true =>
        have hfarewell : isFarewell (Text.strip line.toList) := hend
        have hall : sh.Prints (some line :: rest) (.ok (pages [] (closing (some line :: rest)))) :=
          .complete (by rw [heard_of_isEnd hend]; exact .nil sh)
        rw [closing_of_isEnd hend] at hall
        rw [dialogue_of_end (respond_of_isFarewell hfarewell)]
        exact hall
      | false =>
        have hgoes : isFarewell (Text.strip line.toList) = false := hend
        cases hvalue : (sh.respond line.toList).value with
        | error escape =>
          have hheard : heard (some line :: rest) = [] ++ line :: heard rest := heard_some hend rest
          rw [dialogue_of_error hvalue]
          exact .broken hheard (.nil sh) ((respond_eq_error_iff hgoes).1 hvalue)
        | ok r =>
          have hnext := next_of_respond hgoes hvalue
          have hturn := turn_of_respond hgoes hvalue
          obtain ⟨out, next⟩ := r
          obtain rfl : next = some (sh.after line) := hnext
          rw [dialogue_of_next hvalue]
          exact .cons hend hturn (ih (sh.after line))

/-- A line that comes before another one in the session is a part of what comes before that one. -/
theorem exists_eq_append_cons {earlier later earlier' later' : List String} {line line' : String}
    (h : earlier ++ line :: later = earlier' ++ line' :: later')
    (hlength : earlier'.length < earlier.length) : ∃ rest, earlier = earlier' ++ line' :: rest := by
  rcases List.append_eq_append_iff.1 h with ⟨cs, rfl, -⟩ | ⟨cs, rfl, hcs⟩
  · rw [List.length_append] at hlength
    omega
  · cases cs with
    | nil => simp at hlength
    | cons c cs =>
      obtain ⟨rfl, -⟩ := List.cons.inj hcs
      exact ⟨cs, rfl⟩

/-! ## The calculator that a session starts with -/

/-- The standard calculator at another scale is the one that is started with this scale. -/
theorem standard_at {settings : Settings} {host : Host} {scale : Value} {strict : Bool}
    {c : Calculator} (h : Calculator.standard settings host scale strict = .ok c) (n : Nat) :
    Calculator.standard settings host (.integer n) strict = .ok { c with scale := n } := by
  have hscale : Calculator.scaleOf (Calculator.scaleOrDefault settings (.integer n)) = .ok n :=
    Calculator.scaleOf_eq_ok_iff.2 rfl
  rw [Calculator.standard, Calculator.create, hscale]
  rw [Calculator.standard, Calculator.create] at h
  cases hgiven : Calculator.scaleOf (Calculator.scaleOrDefault settings scale) with
  | error invalid => rw [hgiven] at h; cases h
  | ok m =>
    rw [hgiven] at h
    cases h
    rfl

/-- With the built-in functions alone, it is for want of room that a session breaks off. -/
theorem Breaks.exhausted (hfunctions : sh.calculator.functions = .builtins sh.calculator.arithmetic)
    {line : List Char} {escape : Calculator.Escape} (h : sh.Breaks line escape) :
    ∃ x, escape = .exhausted x := by
  have hcounted : sh.calculator.functions.Counted := hfunctions ▸ Registry.counted_builtins _
  cases h with
  | tree _ _ htree =>
    cases htree with
    | uncounted hparse => exact absurd hparse (Calculator.parse_ne_uncounted hcounted _ _)
    | grouping => exact ⟨_, rfl⟩
    | rendering => exact ⟨_, rfl⟩
  | expression _ hvalue =>
    obtain ⟨x, -, rfl⟩ := (Calculator.evaluate_eq_error_iff hfunctions).1 hvalue
    exact ⟨x, rfl⟩

/-- So with room for every text, no session breaks off. -/
theorem not_breaks_of_fits
    (hfunctions : sh.calculator.functions = .builtins sh.calculator.arithmetic)
    (hfits : ∀ text, sh.calculator.Fits text) (line : List Char) (escape : Calculator.Escape) :
    ¬ sh.Breaks line escape := by
  have hcounted : sh.calculator.functions.Counted := hfunctions ▸ Registry.counted_builtins _
  rintro (⟨-, -, htree⟩ | ⟨-, hvalue⟩)
  · cases htree with
    | uncounted hparse => exact Calculator.parse_ne_uncounted hcounted _ _ hparse
    | grouping hparse => exact (hfits _).parse_ne_exhausted _ hparse
    | rendering hshow =>
      obtain ⟨e, hparse, hx⟩ := hshow
      cases ((hfits _).shows e hparse).symm.trans hx
  · obtain ⟨x, hparse, -⟩ := (Calculator.evaluate_eq_error_iff hfunctions).1 hvalue
    exact (hfits _).parse_ne_exhausted x hparse

/-- **A session is a row of independent calculations, with the scale as all that is remembered.**
Whatever the lines are, the session ends with the first line that is `quit` or `exit`, with an
interruption or with the input, and every line before that has its output.  It is the output of a
shell that is started afresh with the scale that was set last; to an expression it is the answer of
the new calculator.

The exception is a line that the host has no room for, and whose want of room is not reported: the
session breaks off where the shell that is started afresh does. -/
theorem transcript_of_standard {settings : Settings} {host : Host} {scale : Value}
    {strict : Bool} {c : Calculator}
    (h : Calculator.standard settings host scale strict = .ok c) (json showTree : Bool)
    (lines : List (Option String)) :
    ∃ outputs : List (List String),
      (∀ earlier line later, heard lines = earlier ++ line :: later →
        earlier.length < outputs.length →
        ∃ fresh out, Calculator.standard settings host
            (.integer (scaleAfter host.maxDigits c.scale earlier)) strict = .ok fresh ∧
          outputs[earlier.length]? = some out ∧ Turn ⟨fresh, json, showTree⟩ line out) ∧
      (outputs.length = (heard lines).length ∧
          (transcript ⟨c, json, showTree⟩ lines).value =
            .ok (printed [banner] ++ pages outputs (closing lines)) ∨
        ∃ earlier line later fresh x, heard lines = earlier ++ line :: later ∧
          outputs.length = earlier.length ∧
          Calculator.standard settings host
            (.integer (scaleAfter host.maxDigits c.scale earlier)) strict = .ok fresh ∧
          Breaks ⟨fresh, json, showTree⟩ (Text.strip line.toList) (.exhausted x) ∧
          (transcript ⟨c, json, showTree⟩ lines).value =
            .error ⟨.exhausted x, printed [banner] ++ (leaves outputs ++ prompt)⟩) := by
  obtain ⟨-, hbuiltins, -, hhost⟩ := Calculator.standard_spec h
  have hprints := dialogue_spec lines ⟨c, json, showTree⟩
  have hfresh : ∀ earlier : List String, Calculator.standard settings host
      (.integer (scaleAfter host.maxDigits c.scale earlier)) strict =
        .ok (afterAll ⟨c, json, showTree⟩ earlier).calculator := by
    intro earlier
    rw [← hhost]
    exact standard_at (hhost ▸ h) _
  rw [transcript, Logged.map]
  dsimp only
  cases hvalue : (dialogue ⟨c, json, showTree⟩ lines).value with
  | ok text =>
    rw [hvalue] at hprints
    cases hprints with
    | @complete outputs houtputs =>
      refine ⟨outputs, fun earlier line later hlines _ ↦ ?_, .inl ⟨houtputs.length_eq, rfl⟩⟩
      obtain ⟨out, hout, hturn⟩ := houtputs.turn earlier line later hlines
      exact ⟨_, out, hfresh earlier, hout, hturn⟩
  | error crash =>
    rw [hvalue] at hprints
    cases hprints with
    | @broken earlier later line outputs escape hlines houtputs hbreaks =>
      obtain ⟨x, rfl⟩ := hbreaks.exhausted hbuiltins
      refine ⟨outputs, fun earlier' line' later' hlines' hlength ↦ ?_,
        .inr ⟨earlier, line, later, _, x, hlines, houtputs.length_eq, hfresh earlier, hbreaks, rfl⟩⟩
      rw [houtputs.length_eq] at hlength
      obtain ⟨rest, hrest⟩ := exists_eq_append_cons (hlines.symm.trans hlines') hlength
      obtain ⟨out, hout, hturn⟩ := houtputs.turn earlier' line' rest hrest
      exact ⟨_, out, hfresh earlier', hout, hturn⟩

/-- Lines with scales that are refused and one that is set. -/
def scaleLines : List String := ["10 / 4", "scale x", " scale -1", "SCALE 2", "tree"]

/-- A session that begins with them. -/
def scaleSession : List (Option String) :=
  scaleLines.map some ++ [some "2 / 3 ", some "Quit", none, some "1"]

/-- The second quotient has two digits, and nothing is answered after `Quit`. -/
theorem transcript_of_standard_scaleSession :
    Calculator.standard .standard .native .null false = .ok (.standardOn .native) ∧
      ∃ outputs, (transcript ⟨.standardOn .native, false, false⟩ scaleSession).value =
          .ok (printed [banner] ++ pages outputs [farewell]) ∧
        outputs.length = 6 ∧ outputs[5]? = some ["0.67"] := by
  refine ⟨Calculator.standard_eq _, ?_⟩
  have hheard : heard scaleSession = scaleLines ++ "2 / 3 " :: [] := rfl
  have hclosing : closing scaleSession = [farewell] := rfl
  have hscale : scaleAfter Host.native.maxDigits (Calculator.standardOn .native).scale scaleLines =
      2 := by
    decide +kernel
  have hquotient : (({ Calculator.standardOn .native with scale := 2 } : Calculator).calculate
      (some (Text.stripped "2 / 3 "))).value.toOption = some "0.67" := by
    decide +kernel
  have hsurvives : ∀ earlier line fresh x, Calculator.standard .standard .native
      (.integer (scaleAfter Host.native.maxDigits (Calculator.standardOn .native).scale earlier))
        false = .ok fresh → ¬ Breaks ⟨fresh, false, false⟩ line (.exhausted x) := by
    intro earlier line fresh x hfresh
    rw [standard_at (Calculator.standard_eq .native)] at hfresh
    obtain rfl := Except.ok.inj hfresh
    exact not_breaks_of_fits rfl
      (Calculator.fits_of_native (Registry.wellFormed_builtins _) rfl (Int.le_refl _)) line _
  obtain ⟨outputs, hturns, ⟨hlength, htext⟩ | ⟨_, _, _, _, _, -, -, hfresh, hbreaks, -⟩⟩ :=
    transcript_of_standard (Calculator.standard_eq .native) false false scaleSession
  · rw [hheard] at hlength
    rw [hclosing] at htext
    obtain ⟨fresh, out, hfresh, hout, hturn⟩ := hturns _ _ _ hheard (by rw [hlength]; decide)
    rw [hscale, standard_at (Calculator.standard_eq .native) 2] at hfresh
    obtain rfl := Except.ok.inj hfresh
    obtain ⟨a, ha, rfl⟩ := hturn.answer (by decide +kernel)
    rw [Calculator.calculate_of_evaluate ha] at hquotient
    have houtput : a.output = "0.67" := Option.some.inj hquotient
    have hlines : answerLines false false a = ["0.67"] := by
      rw [← houtput]
      rfl
    exact ⟨outputs, htext, hlength, hout.trans (congrArg some hlines)⟩
  · exact absurd hbreaks (hsurvives _ _ _ _ hfresh)

/-! ## Lines that the host has no room for -/

/-- The number two, with one digit more than the host allows. -/
def paddedTwo : List Char := List.replicate 4300 '0' ++ ['2']

theorem isDigit_of_mem_paddedTwo {c : Char} (h : c ∈ paddedTwo) : c.isDigit := by
  obtain h | h := List.mem_append.1 h
  · rw [List.eq_of_mem_replicate h]
    rfl
  · rw [List.mem_singleton.1 h]
    rfl

theorem paddedTwo_ne_nil : paddedTwo ≠ [] := List.append_ne_nil_of_right_ne_nil _ (by decide)

/-- Where the digits are not counted, this is a number. -/
theorem readInt?_paddedTwo : Text.readInt? none paddedTwo = some 2 := by
  have hzeros : ∀ n : Nat, (List.replicate n 0).foldl (fun n d ↦ 10 * n + d) 0 = 0 := by
    intro n
    induction n with
    | zero => rfl
    | succ n ih => rw [List.replicate_succ, List.foldl_cons]; exact ih
  have htwo : Text.ofDigits (paddedTwo.map fun c ↦ c.toNat - 0x30) = 2 := by
    have hzero : '0'.toNat - 0x30 = 0 := rfl
    rw [paddedTwo, List.map_append, List.map_replicate, Text.ofDigits, List.foldl_append, hzero,
      hzeros]
    rfl
  rw [readInt?_of_isDigit paddedTwo_ne_nil fun c ↦ isDigit_of_mem_paddedTwo, htwo]
  rfl

/-- The shell refuses it. -/
theorem respond_paddedTwo :
    (respond ⟨.standardOn .native, false, false⟩ ("scale".toList ++ ' ' :: paddedTwo)).value =
      .ok ⟨["Error: invalid scale " ++ String.ofList (Text.quoted paddedTwo)],
        some ⟨.standardOn .native, false, false⟩⟩ := by
  have hread : Text.readInt? (some 4300) paddedTwo = none := by
    rw [readInt?_of_isDigit paddedTwo_ne_nil fun c ↦ isDigit_of_mem_paddedTwo, paddedTwo,
      List.length_append, List.length_replicate]
    rfl
  have hblank : paddedTwo.any Text.isBlank = false := by
    refine List.any_eq_false.2 fun c hc ↦ ?_
    simp [Grammar.not_isBlank_of_isDigit (isDigit_of_mem_paddedTwo hc)]
  rw [respond_append (by decide) (by decide) paddedTwo_ne_nil hblank rfl]
  exact congrArg Except.ok (respondScale_of_unread paddedTwo_ne_nil hread)

theorem respond_scale : (respond ⟨.standardOn .native, false, false⟩ "scale".toList).value =
    .ok ⟨["Scale: 10"], some ⟨.standardOn .native, false, false⟩⟩ := by
  have hcommand : Command.ofLine? (Text.strip "scale".toList) = some (.scale []) := by
    decide +kernel
  have hten : Digits.natText 10 = "10" := by decide +kernel
  have hlines : ["Scale: " ++ Digits.natText 10] = ["Scale: 10"] := by rw [hten]; rfl
  rw [respond_of_command (by decide +kernel) hcommand, ← hlines]
  rfl

open Tower in
/-- The shell does not survive the command that asks for the tree of `steep`. -/
theorem respond_steep :
    (respond ⟨.standardWithin 10000 1000, false, false⟩ ("tree".toList ++ ' ' :: steep 800)).value =
      .error (.exhausted Host.tooDeep) := by
  have hsteep : steep 800 ≠ [] := by
    rw [← List.length_pos_iff, length_steep]
    decide
  rw [respond_append (by decide) (by decide) hsteep (any_isBlank_steep 800) rfl]
  exact respondTree_eq_error_iff.2 (.rendering cannotShow_steep_within)

/-- **Room is needed.**  There is a number that the host does not read, so that the scale is not
set; and an expression that it does not show, so that the session breaks off and nothing is heard of
the farewell. -/
theorem not_transcript_paddedTwo :
    Text.readInt? none paddedTwo = some 2 ∧
      (transcript ⟨.standardOn .native, false, false⟩
          [some (String.ofList ("scale".toList ++ ' ' :: paddedTwo)), some "scale"]).value =
        .ok (printed [banner] ++
          pages [["Error: invalid scale " ++ String.ofList (Text.quoted paddedTwo)],
            ["Scale: 10"]] ["", farewell]) ∧
      (transcript ⟨.standardWithin 10000 1000, false, false⟩
          [some (String.ofList ("tree".toList ++ ' ' :: Tower.steep 800)), some "quit"]).value =
        .error ⟨.exhausted Host.tooDeep, printed [banner] ++ prompt⟩ := by
  refine ⟨readInt?_paddedTwo, ?_, ?_⟩
  · have hpadded := respond_paddedTwo
    rw [← @String.toList_ofList ("scale".toList ++ ' ' :: paddedTwo)] at hpadded
    rw [transcript, Logged.map]
    dsimp only
    rw [dialogue_of_next hpadded, dialogue_of_next respond_scale, pages_cons, pages_cons]
    rfl
  · have hsteep := respond_steep
    rw [← @String.toList_ofList ("tree".toList ++ ' ' :: Tower.steep 800)] at hsteep
    rw [transcript, Logged.map]
    dsimp only
    rw [dialogue_of_error hsteep]
    rfl

end Formula.Shell
