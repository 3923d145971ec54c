import Minilang.Suite.Basic

namespace Minilang

structure Suite.Valid (s : Suite) : Prop where
  filled : s.cases ≠ []
  named : ∀ c ∈ s.cases, c.name ≠ ""
  distinct : s.cases.Pairwise fun one two => one.name ≠ two.name
  settings : ∀ c ∈ s.cases, c.undefined ∈ ["", "error", "zero"]
  kinds : ∀ c ∈ s.cases, ∀ e ∈ c.error, e.kind.label ∈ ["lex", "parse", "runtime"]
  positions : ∀ c ∈ s.cases, ∀ e ∈ c.error, 0 ≤ e.line ∧ 0 ≤ e.column

inductive CaseRule where
  | named
  | distinct
  | setting
  | kind
  | position

namespace CaseRule

def all : List CaseRule := [named, distinct, setting, kind, position]

def Broken (cases : List Case) (i : Nat) (c : Case) : CaseRule → Prop
  | named => c.name = ""
  | distinct => c.name ≠ "" ∧ ∃ j < i, (cases[j]?).map Case.name = some c.name
  | setting => c.undefined ∉ ["", "error", "zero"]
  | kind => ∃ e ∈ c.error, e.kind.label ∉ ["lex", "parse", "runtime"]
  | position => ∃ e ∈ c.error, e.line < 0 ∨ e.column < 0

instance (cases : List Case) (i : Nat) (c : Case) :
    ∀ rule : CaseRule, Decidable (rule.Broken cases i c)
  | named => inferInstanceAs (Decidable (_ = _))
  | distinct => inferInstanceAs (Decidable (_ ∧ _))
  | setting => inferInstanceAs (Decidable (¬_))
  | kind => inferInstanceAs (Decidable (∃ e ∈ c.error, _))
  | position => inferInstanceAs (Decidable (∃ e ∈ c.error, _))

def issue (label : String) (c : Case) : CaseRule → String
  | named => label ++ ": name must be provided"
  | distinct => label ++ ": duplicate name " ++ Text.quoted c.name
  | setting => label ++ ": undefined must be " ++ Text.quoted "error" ++ " or " ++
      Text.quoted "zero"
  | kind => label ++ ": error kind must be lex, parse or runtime, got " ++
      Text.quoted ((c.error.map (·.kind.label)).getD "")
  | position => label ++ ": error position must not be negative"

def reported (cases : List Case) (i : Nat) (c : Case) (rules : List CaseRule) : List String :=
  (rules.filter fun rule => rule.Broken cases i c).map (issue ("cases[" ++ decimal i ++ "]") c)

@[simp]
theorem reported_nil (cases : List Case) (i : Nat) (c : Case) : reported cases i c [] = [] := rfl

@[simp]
theorem reported_cons (cases : List Case) (i : Nat) (c : Case) (rule : CaseRule)
    (rules : List CaseRule) :
    reported cases i c (rule :: rules) =
      (if rule.Broken cases i c then [rule.issue ("cases[" ++ decimal i ++ "]") c] else []) ++
        reported cases i c rules := by
  by_cases broken : rule.Broken cases i c <;> simp [reported, broken]

@[simp]
theorem reported_append (cases : List Case) (i : Nat) (c : Case) (one two : List CaseRule) :
    reported cases i c (one ++ two) = reported cases i c one ++ reported cases i c two := by
  simp [reported]

end CaseRule

def Suite.flaws (s : Suite) : List String :=
  if s.cases = [] then ["cases must not be empty"]
  else s.cases.zipIdx.flatMap fun entry => CaseRule.reported s.cases entry.2 entry.1 CaseRule.all

section Issues

variable {cases : List Case} {i : Nat} {c : Case} {earlier : List String}

theorem nameIssues_reported
    (known : ∀ name, name ∈ earlier ↔ ∃ j < i, (cases[j]?).map Case.name = some name) :
    c.nameIssues ("cases[" ++ decimal i ++ "]") earlier =
      CaseRule.reported cases i c [.named, .distinct] := by
  have repeated : CaseRule.distinct.Broken cases i c ↔ c.name ≠ "" ∧ c.name ∈ earlier := by
    rw [known]
    rfl
  have missing : CaseRule.named.Broken cases i c ↔ c.name = "" := Iff.rfl
  simp only [CaseRule.reported_cons, missing, repeated, Case.nameIssues, CaseRule.issue,
    List.contains_iff_mem]
  by_cases empty : c.name = "" <;> simp [empty, CaseRule.reported]

theorem undefinedIssues_reported :
    c.undefinedIssues ("cases[" ++ decimal i ++ "]") = CaseRule.reported cases i c [.setting] := by
  have known : CaseRule.setting.Broken cases i c ↔
      ¬(c.undefined = "" ∨ (UndefinedMode.ofLabel? c.undefined).isSome) := by
    simp only [CaseRule.Broken, UndefinedMode.ofLabel?, List.mem_cons, List.not_mem_nil, or_false]
    by_cases strict : c.undefined = "error" <;> by_cases zero : c.undefined = "zero" <;>
      simp [strict, zero]
  simp only [CaseRule.reported_cons, known, Case.undefinedIssues, CaseRule.issue, Bool.or_eq_true,
    decide_eq_true_eq, ite_not]
  split <;> rfl

theorem stage_listed (stage : Stage) :
    stage ∈ [Stage.lex, .parse, .runtime] ↔ stage.label ∈ ["lex", "parse", "runtime"] := by
  obtain ⟨label⟩ := stage
  simp [Stage.lex, Stage.parse, Stage.runtime]

theorem errorIssues_reported :
    c.errorIssues ("cases[" ++ decimal i ++ "]") =
      CaseRule.reported cases i c [.kind, .position] := by
  cases given : c.error with
  | none => simp [Case.errorIssues, CaseRule.reported, CaseRule.Broken, given]
  | some e =>
    have stage : CaseRule.kind.Broken cases i c ↔ e.kind ∉ [Stage.lex, .parse, .runtime] := by
      rw [stage_listed]
      simp [CaseRule.Broken, given]
    have place : CaseRule.position.Broken cases i c ↔ e.line < 0 ∨ e.column < 0 := by
      simp [CaseRule.Broken, given]
    simp only [CaseRule.reported_cons, stage, place, Case.errorIssues, given, CaseRule.issue,
      ite_not, List.contains_iff_mem, Bool.or_eq_true, decide_eq_true_eq, Option.map_some,
      Option.getD_some, CaseRule.reported_nil, List.append_nil]

theorem case_reported
    (known : ∀ name, name ∈ earlier ↔ ∃ j < i, (cases[j]?).map Case.name = some name) :
    c.nameIssues ("cases[" ++ decimal i ++ "]") earlier ++
        c.undefinedIssues ("cases[" ++ decimal i ++ "]") ++
      c.errorIssues ("cases[" ++ decimal i ++ "]") = CaseRule.reported cases i c CaseRule.all := by
  rw [nameIssues_reported known, undefinedIssues_reported, errorIssues_reported,
    ← CaseRule.reported_append, ← CaseRule.reported_append]
  rfl

-- The invariant of the walk: the names gathered are those of the cases passed, broken or not.
theorem caseIssues_reported {rest : List Case} (left : cases.drop i = rest)
    (known : ∀ name, name ∈ earlier ↔ ∃ j < i, (cases[j]?).map Case.name = some name) :
    Suite.caseIssues i earlier rest =
      (rest.zipIdx i).flatMap fun entry =>
        CaseRule.reported cases entry.2 entry.1 CaseRule.all := by
  induction rest generalizing i earlier with
  | nil => rfl
  | cons c rest ih =>
    have here : cases[i]? = some c := by
      rw [← List.head?_drop, left]
      rfl
    have behind : cases.drop (i + 1) = rest := by
      rw [← List.tail_drop, left]
      rfl
    have grown : ∀ name, name ∈ c.name :: earlier ↔
        ∃ j < i + 1, (cases[j]?).map Case.name = some name := by
      intro name
      rw [Nat.exists_lt_succ_right, ← known, here, List.mem_cons, or_comm]
      simp [eq_comm]
    rw [Suite.caseIssues, List.zipIdx_cons, List.flatMap_cons, ← ih behind grown,
      ← case_reported known]

theorem issues_flaws (s : Suite) : s.issues = s.flaws := by
  unfold Suite.issues Suite.flaws
  by_cases empty : s.cases = []
  · simp [empty, Suite.caseIssues]
  · rw [if_neg empty, if_neg (by simpa using empty), List.nil_append]
    exact caseIssues_reported rfl (by simp)

end Issues

def Suite.Kept (s : Suite) : Prop :=
  ∀ i c, s.cases[i]? = some c → ∀ rule : CaseRule, ¬rule.Broken s.cases i c

theorem reported_nil_iff {cases : List Case} {i : Nat} {c : Case} :
    CaseRule.reported cases i c CaseRule.all = [] ↔ ∀ rule : CaseRule, ¬rule.Broken cases i c := by
  have every : ∀ rule, rule ∈ CaseRule.all := by
    intro rule
    cases rule <;> simp [CaseRule.all]
  simp [CaseRule.reported, every]

theorem flaws_nil (s : Suite) : s.flaws = [] ↔ s.cases ≠ [] ∧ s.Kept := by
  unfold Suite.flaws Suite.Kept
  split
  · rename_i empty
    simp [empty]
  · rename_i filled
    simp only [List.flatMap_eq_nil_iff, List.mem_zipIdx_iff_getElem?, Prod.forall, reported_nil_iff]
    exact ⟨fun kept => ⟨filled, fun i c => kept c i⟩, fun kept c i => kept.2 i c⟩

theorem distinct_iff {cases : List Case} (named : ∀ c ∈ cases, c.name ≠ "") :
    (cases.Pairwise fun one two => one.name ≠ two.name) ↔
      ∀ i c, cases[i]? = some c → ¬CaseRule.distinct.Broken cases i c := by
  constructor
  · rintro distinct i c found ⟨-, j, before, same⟩
    obtain ⟨other, there, equal⟩ := Option.map_eq_some_iff.mp same
    obtain ⟨_, rfl⟩ := List.getElem?_eq_some_iff.mp found
    obtain ⟨_, rfl⟩ := List.getElem?_eq_some_iff.mp there
    exact List.pairwise_iff_getElem.mp distinct j i _ _ before equal
  · intro kept
    rw [List.pairwise_iff_getElem]
    intro j i inside insideToo before same
    refine kept i _ (List.getElem?_eq_getElem insideToo)
      ⟨named _ (List.getElem_mem insideToo), j, before, ?_⟩
    rw [List.getElem?_eq_getElem inside, Option.map_some, same]

theorem valid_iff (s : Suite) : s.Valid ↔ s.flaws = [] := by
  rw [flaws_nil]
  constructor
  · intro valid
    refine ⟨valid.filled, fun i c found rule => ?_⟩
    have member := List.mem_of_getElem? found
    cases rule with
    | named => exact valid.named c member
    | distinct => exact (distinct_iff valid.named).mp valid.distinct i c found
    | setting => exact not_not_intro (valid.settings c member)
    | kind =>
      rintro ⟨e, given, outside⟩
      exact outside (valid.kinds c member e given)
    | position =>
      rintro ⟨e, given, negative⟩
      have := valid.positions c member e given
      omega
  · rintro ⟨filled, kept⟩
    have each (c) (member : c ∈ s.cases) : ∃ i, ∀ rule : CaseRule, ¬rule.Broken s.cases i c := by
      obtain ⟨i, found⟩ := List.mem_iff_getElem?.mp member
      exact ⟨i, kept i c found⟩
    have named : ∀ c ∈ s.cases, c.name ≠ "" := by
      intro c member
      obtain ⟨i, unbroken⟩ := each c member
      exact unbroken .named
    have distinct := (distinct_iff named).mpr fun i c found => kept i c found .distinct
    refine ⟨filled, named, distinct, ?_, ?_, ?_⟩
    · intro c member
      obtain ⟨i, unbroken⟩ := each c member
      exact Decidable.not_not.mp (unbroken .setting)
    · intro c member e given
      obtain ⟨i, unbroken⟩ := each c member
      exact Decidable.byContradiction fun outside => unbroken .kind ⟨e, given, outside⟩
    · intro c member e given
      obtain ⟨i, unbroken⟩ := each c member
      have fine : ¬(e.line < 0 ∨ e.column < 0) := fun negative =>
        unbroken .position ⟨e, given, negative⟩
      omega

-- A suite passes exactly when it is valid. Otherwise every rule that is broken is reported
-- once, at each place where it is, in the order of the cases; no issue hides another.
theorem validation_exact (s : Suite) :
    (s.checked = .ok s ↔ s.Valid) ∧
      (¬s.Valid → s.checked = .error (.validation s.flaws)) := by
  rw [valid_iff, Suite.checked, issues_flaws]
  by_cases none : s.flaws = []
  · simp [none]
  · simp [none]

def flawedSuite : Suite where
  cases := [{ name := "a", undefined := "sometimes" },
    { name := "a", error := some { kind := ⟨"typecheck"⟩, line := -1 } }, {}]

theorem validation_exact_flawed : ¬flawedSuite.Valid ∧
    flawedSuite.checked = .error (.validation
      ["cases[0]: undefined must be " ++ Text.quoted "error" ++ " or " ++ Text.quoted "zero",
        "cases[1]: duplicate name " ++ Text.quoted "a",
        "cases[1]: error kind must be lex, parse or runtime, got " ++ Text.quoted "typecheck",
        "cases[1]: error position must not be negative", "cases[2]: name must be provided"]) := by
  have invalid : ¬flawedSuite.Valid := fun valid => valid.named {} (by simp [flawedSuite]) rfl
  exact ⟨invalid, (validation_exact flawedSuite).2 invalid⟩

end Minilang
