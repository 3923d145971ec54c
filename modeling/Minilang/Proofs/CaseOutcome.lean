import Minilang.Proofs.DecimalText
import Minilang.Suite.Report

namespace Minilang

namespace Text

theorem holdsPart_iff (part : List Char) (cs : List Char) : holdsPart part cs ↔ part <:+: cs := by
  induction cs with
  | nil => simp [holdsPart]
  | cons c cs ih => rw [List.infix_cons_iff, ← ih]; simp [holdsPart]

theorem holds_iff (text part : String) :
    holds text part ↔ ∃ before after, text = before ++ part ++ after := by
  rw [holds, holdsPart_iff]
  constructor
  · rintro ⟨before, after, whole⟩
    refine ⟨String.ofList before, String.ofList after, ?_⟩
    rw [← String.toList_inj]
    simp [whole]
  · rintro ⟨before, after, rfl⟩
    exact ⟨before.toList, after.toList, by simp⟩

theorem splitFrom_end {line : List Char} (unbroken : '\n' ∉ line) (read : List Char) :
    splitFrom read line = [String.ofList (read.reverse ++ line)] := by
  induction line generalizing read with
  | nil => simp [splitFrom]
  | cons c line ih =>
    simp only [List.mem_cons, not_or] at unbroken
    rw [splitFrom, if_neg (by simpa using Ne.symm unbroken.1), ih unbroken.2]
    simp

theorem splitFrom_line {line : List Char} (unbroken : '\n' ∉ line) (read rest : List Char) :
    splitFrom read (line ++ '\n' :: rest) =
      String.ofList (read.reverse ++ line) :: splitFrom [] rest := by
  induction line generalizing read with
  | nil => simp [splitFrom]
  | cons c line ih =>
    simp only [List.mem_cons, not_or] at unbroken
    rw [List.cons_append, splitFrom, if_neg (by simpa using Ne.symm unbroken.1), ih unbroken.2]
    simp

theorem splitFrom_lines {ls : List String} (unbroken : ∀ line ∈ ls, '\n' ∉ line.toList)
    {last : List Char} (ending : '\n' ∉ last) :
    splitFrom [] ((String.join (ls.map (· ++ "\n"))).toList ++ last) =
      ls ++ [String.ofList last] := by
  induction ls with
  | nil => simp [splitFrom_end ending]
  | cons line ls ih =>
    have later := ih fun other member => unbroken other (List.mem_cons_of_mem line member)
    rw [List.map_cons, String.join_cons, List.cons_append, ← later]
    simpa using splitFrom_line (unbroken line (by simp)) [] _

-- Lines come back from their text. One empty line alone would not: its text has no line.
theorem lines_join {ls : List String} (unbroken : ∀ line ∈ ls, '\n' ∉ line.toList)
    (filled : ∀ line ∈ ls, line ≠ "") : lines (String.join (ls.map (· ++ "\n"))) = ls := by
  rcases List.eq_nil_or_concat ls with rfl | ⟨before, last, rfl⟩
  · rfl
  · rw [List.concat_eq_append] at *
    have whole : (String.join ((before ++ [last]).map (· ++ "\n"))).toList =
        (String.join (before.map (· ++ "\n"))).toList ++ last.toList ++ ['\n'] := by
      simp [String.join_append]
    have some : last.toList ≠ [] := by
      simpa using filled last (by simp)
    have inside : ∀ line ∈ before, '\n' ∉ line.toList := fun line member =>
      unbroken line (List.mem_append_left _ member)
    have split := splitFrom_lines inside (unbroken last (by simp))
    rw [lines, whole, List.getLast?_concat, List.dropLast_concat]
    simpa [some] using split

end Text

theorem decimal_line (v : Int) : '\n' ∉ (decimal v).toList ∧ decimal v ≠ "" := by
  obtain ⟨digits, numeral, -, -, text⟩ := decimal_isDecimal v
  have unbroken : '\n' ∉ digits.toList := fun member => absurd (numeral.2 _ member) (by decide)
  have filled := numeral.1
  rw [text]
  split
  · exact ⟨by simpa using unbroken, by simp⟩
  · exact ⟨unbroken, by simpa using filled⟩

theorem Ending.lines_output (ending : Ending) : Text.lines ending.output = ending.outputLines := by
  cases reached : ending.machine with
  | none => simp [Ending.output, Ending.outputLines, reached]; rfl
  | some m =>
    simp only [Ending.output, Ending.outputLines, reached, Option.map_some, Option.getD_some]
    apply Text.lines_join
    · intro line member
      obtain ⟨v, -, rfl⟩ := List.mem_map.mp member
      exact (decimal_line v).1
    · intro line member
      obtain ⟨v, -, rfl⟩ := List.mem_map.mp member
      exact (decimal_line v).2

theorem lineDetail_iff {expected got : List String} (size : got.length = expected.length)
    (number : Nat) : Case.lineDetail number expected got = "" ↔ got = expected := by
  induction expected generalizing got number with
  | nil =>
    rw [List.length_eq_zero_iff.mp size]
    simp [Case.lineDetail]
  | cons line expected ih =>
    cases got with
    | nil => cases size
    | cons other got =>
      unfold Case.lineDetail
      split
      · rename_i same
        rw [ih (by simpa using size), same]
        simp
      · rename_i differs
        simp [differs]

theorem outputDetail_iff (expected got : List String) :
    Case.outputDetail expected got = "" ↔ got = expected := by
  unfold Case.outputDetail
  split
  · rename_i differs
    have other : got ≠ expected := fun same => differs (congrArg List.length same)
    simp [other]
  · rename_i same
    exact lineDetail_iff (not_not.mp same) 1

-- What an expected error says of a diagnostic. A place that is not given says nothing.
structure ExpectedError.Describes (e : ExpectedError) (d : Diagnostic) : Prop where
  stage : d.stage = e.kind
  line : e.line ≠ 0 → d.line = e.line
  column : e.column ≠ 0 → d.column = e.column
  message : ∃ before after, d.message = before ++ e.contains ++ after

def Case.Met (c : Case) (ending : Ending) : Prop :=
  match c.error with
  | none => ending.failure = none ∧ ending.outputLines = c.stdout.getD []
  | some e =>
    (∃ failure d, ending.failure = some failure ∧ failure.diagnose = some d ∧ e.Describes d) ∧
      ∀ expected, c.stdout = some expected → ending.outputLines = expected

theorem diagnosticDetail_iff {e : ExpectedError} {d : Diagnostic} (stage : d.stage = e.kind) :
    e.diagnosticDetail d = "" ↔ e.Describes d := by
  unfold ExpectedError.diagnosticDetail
  split
  · rename_i wrong
    exact iff_of_false (by simp) fun fits => wrong.2 (fits.line wrong.1)
  · rename_i line
    split
    · rename_i wrong
      exact iff_of_false (by simp) fun fits => wrong.2 (fits.column wrong.1)
    · rename_i column
      split
      · rename_i wrong
        exact iff_of_false (by simp) fun fits => wrong.2 ((Text.holds_iff _ _).mpr fits.message)
      · rename_i message
        simp only [not_and, not_not] at line column message
        refine iff_of_true rfl ⟨stage, line, column, ?_⟩
        by_cases empty : e.contains = ""
        · exact ⟨d.message, "", by simp [empty]⟩
        · exact (Text.holds_iff _ _).mp (message empty)

theorem detail_iff (e : ExpectedError) (failure : Option Failure) :
    e.detail failure = "" ↔
      ∃ found d, failure = some found ∧ found.diagnose = some d ∧ e.Describes d := by
  cases failure with
  | none => simp [ExpectedError.detail]
  | some found =>
    cases diagnosed : found.diagnose with
    | none => simp [ExpectedError.detail, ExpectedError.otherStage, diagnosed]
    | some d =>
      by_cases stage : d.stage = e.kind
      · simp [ExpectedError.detail, diagnosed, stage, diagnosticDetail_iff stage]
      · have other : ¬e.Describes d := fun fits => stage fits.stage
        simp [ExpectedError.detail, ExpectedError.otherStage, diagnosed, stage, other]

theorem errorDetail_iff (c : Case) (failure : Option Failure) :
    c.errorDetail failure = "" ↔ match c.error with
      | none => failure = none
      | some e => ∃ found d, failure = some found ∧ found.diagnose = some d ∧ e.Describes d := by
  cases given : c.error with
  | none => cases failure <;> simp [Case.errorDetail, given]
  | some e =>
    simp only [Case.errorDetail, given]
    exact detail_iff e failure

theorem judge_name (c : Case) (ending : Ending) : (c.judge ending).name = c.name := by
  unfold Case.judge
  dsimp only
  split
  · rfl
  · split
    · split <;> rfl
    · rfl

theorem judge_passed (c : Case) (ending : Ending) :
    ((c.judge ending).passed ↔ c.errorDetail ending.failure = "" ∧
      (c.error = none ∨ c.stdout ≠ none → ending.outputLines = c.stdout.getD [])) ∧
    ((c.judge ending).detail = "" ↔ (c.judge ending).passed) := by
  have counts : (c.error.isNone || c.stdout.isSome) ↔ c.error = none ∨ c.stdout ≠ none := by
    cases c.error <;> cases c.stdout <;> simp
  unfold Case.judge
  dsimp only
  rw [← outputDetail_iff, ending.lines_output]
  split
  · rename_i failure
    simp [CaseResult.fail, failure]
  · rename_i failure
    simp only [counts]
    split
    · split
      · simp_all [CaseResult.fail]
      · simp_all
    · simp_all

theorem met_iff (c : Case) (ending : Ending) : c.Met ending ↔ c.errorDetail ending.failure = "" ∧
    (c.error = none ∨ c.stdout ≠ none → ending.outputLines = c.stdout.getD []) := by
  rw [errorDetail_iff]
  unfold Case.Met
  cases c.error with
  | none => simp
  | some e => cases c.stdout <;> simp

-- The run is made at the case's own setting if it has one. Whatever the run did, the case
-- passes when that is what it says, and only then; a detail is given just when it fails.
theorem case_passes_exactly (suite : Suite) (c : Case) (given : UndefinedMode) :
    ∃ mode : UndefinedMode,
      (if c.undefined = "" then mode = given else (mode = .zero ↔ c.undefined = "zero")) ∧
      ∀ bound ending, runSource { undefined := mode } bound none (c.path suite.name)
          (Text.bytesOf c.source) = some ending →
        ∃ result, c.run bound suite.name given = some result ∧ result.name = c.name ∧
          (result.passed ↔ c.Met ending) ∧ (result.detail = "" ↔ result.passed) := by
  refine ⟨c.mode given, ?_, fun bound ending ended => ⟨c.judge ending, ?_, judge_name c ending, ?_⟩⟩
  · unfold Case.mode
    split
    · rfl
    · split <;> simp_all
  · rw [Case.run, ended, Option.map_some]
  · obtain ⟨passed, detail⟩ := judge_passed c ending
    exact ⟨passed.trans (met_iff c ending).symm, detail⟩

def failingCase (stdout : Option (List String)) : Case where
  name := "c"
  source := "print 1;1/0;"
  undefined := "zero"
  stdout := stdout
  error := some { kind := .runtime, column := 10, contains := "by zero" }

def failingEnd : Ending where
  machine := some { Machine.start .empty none with printed := #[1] }
  failure := some (.inProgram "s/c" (.runtime ⟨⟨0, 9⟩, .divisionByZero, "division by zero", ""⟩))

theorem failingCase_ends (stdout : Option (List String)) :
    runSource { undefined := .zero } 0 none ((failingCase stdout).path "s")
      (Text.bytesOf (failingCase stdout).source) = some failingEnd := by
  have bytes : Text.bytesOf (failingCase stdout).source =
      [112, 114, 105, 110, 116, 32, 49, 59, 49, 47, 48, 59] := by
    change Text.bytesOf "print 1;1/0;" = _
    rw [bytesOf_toList]
    rfl
  have path : (failingCase stdout).path "s" = "s/c" := rfl
  rw [bytes, path]
  rfl

theorem failingCase_met (stdout : Option (List String)) :
    (failingCase stdout).Met failingEnd ↔
      ∀ expected, stdout = some expected → ["1"] = expected := by
  have described : ∃ failure d, failingEnd.failure = some failure ∧ failure.diagnose = some d ∧
      ExpectedError.Describes { kind := .runtime, column := 10, contains := "by zero" } d :=
    ⟨_, _, rfl, rfl, rfl, by simp, fun _ => rfl, "division ", "", rfl⟩
  exact and_iff_right described

theorem case_passes_exactly_failing :
    (∃ result, (failingCase (some ["1"])).run 0 "s" .strict = some result ∧ result.passed) ∧
    ∃ result, (failingCase (some [])).run 0 "s" .strict = some result ∧ result.detail ≠ "" := by
  constructor
  · obtain ⟨mode, chosen, exact⟩ :=
      case_passes_exactly { name := "s" } (failingCase (some ["1"])) .strict
    obtain rfl : mode = .zero := by simpa [failingCase] using chosen
    obtain ⟨result, ran, -, passed, -⟩ := exact 0 failingEnd (failingCase_ends _)
    refine ⟨result, ran, passed.mpr ((failingCase_met _).mpr ?_)⟩
    rintro expected ⟨⟩
    rfl
  · obtain ⟨mode, chosen, exact⟩ :=
      case_passes_exactly { name := "s" } (failingCase (some [])) .strict
    obtain rfl : mode = .zero := by simpa [failingCase] using chosen
    obtain ⟨result, ran, -, passed, detail⟩ := exact 0 failingEnd (failingCase_ends _)
    refine ⟨result, ran, fun empty => ?_⟩
    have lines := (failingCase_met _).mp (passed.mp (detail.mp empty)) [] rfl
    cases lines

end Minilang
