import Mathlib.Data.List.Forall2
import Minilang.CommandLine.Basic
import Minilang.Files.Tree
import Minilang.Proofs.CaseOutcome
import Minilang.Proofs.Layout

namespace Minilang

namespace Case

variable {c : Case} {given : UndefinedMode} {suite : String} {n k : Nat} {r s : CaseResult}

def Halts (given : UndefinedMode) (suite : String) (c : Case) : Prop :=
  ∃ bound ending, runSource { undefined := c.mode given } bound none (c.path suite)
    (Text.bytesOf c.source) = some ending

def Passes (given : UndefinedMode) (suite : String) (c : Case) : Prop :=
  ∃ bound ending, runSource { undefined := c.mode given } bound none (c.path suite)
    (Text.bytesOf c.source) = some ending ∧ c.Met ending

-- The result of a case. How far its loops were let run does not show in it.
def Gives (given : UndefinedMode) (suite : String) (c : Case) (r : CaseResult) : Prop :=
  ∃ bound, c.run bound suite given = some r

theorem run_kept (more : n ≤ k) (ran : c.run n suite given = some r) :
    c.run k suite given = some r := by
  obtain ⟨ending, ended, judged⟩ := Option.map_eq_some_iff.mp ran
  rw [run, runSource_kept more ended, Option.map_some, judged]

theorem Gives.passed (gives : c.Gives given suite r) : r.passed = true ↔ c.Passes given suite := by
  obtain ⟨n, ran⟩ := gives
  obtain ⟨ending, ended, rfl⟩ := Option.map_eq_some_iff.mp ran
  rw [(judge_passed c ending).1, ← met_iff]
  constructor
  · intro met
    exact ⟨n, ending, ended, met⟩
  · intro passes
    obtain ⟨k, other, again, met⟩ := passes
    have left := runSource_kept (Nat.le_max_left n k) ended
    have right := runSource_kept (Nat.le_max_right n k) again
    obtain rfl := Option.some.inj (left.symm.trans right)
    exact met

theorem halts_iff : c.Halts given suite ↔ ∃ n r, c.run n suite given = some r := by
  constructor
  · intro halts
    obtain ⟨n, ending, ended⟩ := halts
    exact ⟨n, c.judge ending, by rw [run, ended, Option.map_some]⟩
  · intro ran
    obtain ⟨n, r, ran⟩ := ran
    obtain ⟨ending, ended, -⟩ := Option.map_eq_some_iff.mp ran
    exact ⟨n, ending, ended⟩

end Case

theorem mapM_some_iff {α β : Type} (f : α → Option β) (xs : List α) (ys : List β) :
    xs.mapM f = some ys ↔ List.Forall₂ (fun x y => f x = some y) xs ys := by
  induction xs generalizing ys with
  | nil => cases ys <;> simp
  | cons x xs ih =>
    rw [List.mapM_cons]
    constructor
    · intro mapped
      obtain ⟨y, here, mapped⟩ := Option.bind_eq_some_iff.mp mapped
      obtain ⟨others, behind, same⟩ := Option.bind_eq_some_iff.mp mapped
      cases same
      exact .cons here ((ih others).mp behind)
    · intro each
      cases each with
      | cons here behind => simp [here, (ih _).mpr behind]

theorem exists_forall₂_iff {α β : Type} {related : α → β → Prop} {xs : List α} :
    (∃ ys, List.Forall₂ related xs ys) ↔ ∀ x ∈ xs, ∃ y, related x y := by
  induction xs with
  | nil => exact iff_of_true ⟨[], .nil⟩ (List.forall_mem_nil _)
  | cons x xs ih =>
    rw [List.forall_mem_cons, ← ih]
    constructor
    · intro both
      obtain ⟨_, both⟩ := both
      cases both with
      | cons here behind => exact ⟨⟨_, here⟩, _, behind⟩
    · intro both
      obtain ⟨⟨y, here⟩, ys, behind⟩ := both
      exact ⟨y :: ys, .cons here behind⟩

-- A bound for each of some things gives one for all of them, if more is never too much.
theorem common_bound {α : Type} {holds : α → Nat → Prop}
    (kept : ∀ x n k, n ≤ k → holds x n → holds x k) {xs : List α}
    (each : ∀ x ∈ xs, ∃ n, holds x n) : ∃ n, ∀ x ∈ xs, holds x n := by
  induction xs with
  | nil => exact ⟨0, List.forall_mem_nil _⟩
  | cons x xs ih =>
    obtain ⟨⟨n, here⟩, later⟩ := List.forall_mem_cons.mp each
    obtain ⟨k, behind⟩ := ih later
    refine ⟨max n k, List.forall_mem_cons.mpr ⟨kept x n _ (Nat.le_max_left n k) here, ?_⟩⟩
    intro y member
    exact kept y k _ (Nat.le_max_right n k) (behind y member)

namespace Suite

variable {s : Suite} {given : UndefinedMode} {n k : Nat} {report : Report}

theorem run_iff : s.run n given = some report ↔ report.suite = s.name ∧
    List.Forall₂ (fun c r => Case.run n s.name given c = some r) s.cases report.results := by
  rw [run, Option.map_eq_some_iff, ← mapM_some_iff]
  constructor
  · intro ran
    obtain ⟨results, ran, rfl⟩ := ran
    exact ⟨rfl, ran⟩
  · intro ran
    obtain ⟨named, ran⟩ := ran
    exact ⟨report.results, ran, by rw [← named]⟩

theorem run_kept (more : n ≤ k) (ran : s.run n given = some report) :
    s.run k given = some report := by
  obtain ⟨named, ran⟩ := run_iff.mp ran
  refine run_iff.mpr ⟨named, ran.imp ?_⟩
  intro c r here
  exact Case.run_kept more here

theorem run_halts (s : Suite) (given : UndefinedMode) :
    (∃ n report, s.run n given = some report) ↔ ∀ c ∈ s.cases, c.Halts given s.name := by
  constructor
  · intro ran c member
    obtain ⟨n, report, ran⟩ := ran
    obtain ⟨r, here⟩ := exists_forall₂_iff.mp ⟨_, (run_iff.mp ran).2⟩ c member
    exact Case.halts_iff.mpr ⟨n, r, here⟩
  · intro halts
    have kept : ∀ c n k, n ≤ k → (∃ r, Case.run n s.name given c = some r) →
        ∃ r, Case.run k s.name given c = some r := by
      intro c n k more ran
      obtain ⟨r, ran⟩ := ran
      exact ⟨r, Case.run_kept more ran⟩
    obtain ⟨n, each⟩ := common_bound kept fun c member => Case.halts_iff.mp (halts c member)
    obtain ⟨results, ran⟩ := exists_forall₂_iff.mpr each
    exact ⟨n, ⟨s.name, results⟩, run_iff.mpr ⟨rfl, ran⟩⟩

end Suite

namespace CommandLine

variable {files : Files Id} {mode : UndefinedMode} {verbose : Bool} {path : String}
variable {paths : List String} {n k : Nat} {outcome : Outcome}

inductive CaseLines (verbose : Bool) (suite : String) : List CaseResult → List String → Nat → Prop where
  | nil : CaseLines verbose suite [] [] 0
  | failed (fails : r.passed = false) (behind : CaseLines verbose suite results lines failures) :
      CaseLines verbose suite (r :: results)
        (("FAIL " ++ suite ++ "/" ++ r.name ++ ": " ++ r.detail ++ "\n") :: lines) (failures + 1)
  | passed (passes : r.passed = true) (listed : verbose = true)
      (behind : CaseLines verbose suite results lines failures) :
      CaseLines verbose suite (r :: results)
        (("PASS " ++ suite ++ "/" ++ r.name ++ "\n") :: lines) failures
  | unlisted (passes : r.passed = true) (silent : verbose = false)
      (behind : CaseLines verbose suite results lines failures) :
      CaseLines verbose suite (r :: results) lines failures

def verdict (suite : String) (failures cases : Nat) : String :=
  if 0 < failures then
    "FAIL " ++ suite ++ " (" ++ decimal failures ++ " of " ++ decimal cases ++ " cases failed)\n"
  else "ok   " ++ suite ++ " (" ++ decimal cases ++ " cases)\n"

-- What a path given to the command contributes, whatever the others do.
inductive Tested (files : Files Id) (mode : UndefinedMode) (verbose : Bool) (path : String) :
    Outcome → Prop where
  | unloaded {failure : Failure} (failed : Suite.load files path = Except.error failure) :
      Tested files mode verbose path ⟨1, "", failure.message ++ "\n"⟩
  | loaded {suite : Suite} {rs : List CaseResult} {lines : List String} {failures : Nat}
      (loads : Suite.load files path = Except.ok suite)
      (results : List.Forall₂ (Case.Gives mode suite.name) suite.cases rs)
      (listed : CaseLines verbose suite.name rs lines failures) :
      Tested files mode verbose path ⟨if 0 < failures then 1 else 0,
        String.join lines ++ verdict suite.name failures suite.cases.length, ""⟩

theorem caseLines_exist (verbose : Bool) (suite : String) (results : List CaseResult) :
    ∃ lines, CaseLines verbose suite results lines (results.countP (!·.passed)) ∧
      String.join (results.map (caseLine verbose suite)) = String.join lines := by
  induction results with
  | nil => exact ⟨[], .nil, rfl⟩
  | cons r results ih =>
    obtain ⟨lines, listed, same⟩ := ih
    rw [List.map_cons, String.join_cons, same]
    cases passed : r.passed with
    | false =>
      rw [List.countP_cons_of_pos (by simp [passed])]
      refine ⟨_, .failed passed listed, ?_⟩
      simp [caseLine, passed, String.join_cons]
    | true =>
      rw [List.countP_cons_of_neg (by simp [passed])]
      cases verbose with
      | true =>
        refine ⟨_, .passed passed rfl listed, ?_⟩
        simp [caseLine, passed, String.join_cons]
      | false =>
        refine ⟨_, .unlisted passed rfl listed, ?_⟩
        simp [caseLine, passed]

theorem CaseLines.failures {suite : String} {rs : List CaseResult} {lines : List String}
    {failures : Nat} (listed : CaseLines verbose suite rs lines failures) :
    failures = 0 ↔ ∀ r ∈ rs, r.passed = true := by
  induction listed with
  | nil => simp
  | failed fails => simp [fails]
  | passed passes _ _ ih => simp [passes, ih]
  | unlisted passes _ _ ih => simp [passes, ih]

theorem testSuite_loaded {suite : Suite} (loads : Suite.load files path = Except.ok suite) :
    testSuite files n verbose mode path = (suite.run n mode).map fun report =>
      { code := if 0 < report.failed then 1 else 0, stdout := reportText verbose report } := by
  unfold testSuite
  simp only [loads]
  rfl

theorem testSuite_unloaded {failure : Failure} (failed : Suite.load files path = Except.error failure) :
    testSuite files n verbose mode path = some (.stopped (failure.message ++ "\n")) := by
  unfold testSuite
  simp only [failed]
  rfl

theorem testSuite_tested (ran : testSuite files n verbose mode path = some outcome) :
    Tested files mode verbose path outcome := by
  cases loads : Suite.load files path with
  | error failure =>
    rw [testSuite_unloaded loads] at ran
    cases ran
    exact .unloaded loads
  | ok suite =>
    rw [testSuite_loaded loads] at ran
    obtain ⟨⟨name, rs⟩, reported, rfl⟩ := Option.map_eq_some_iff.mp ran
    obtain ⟨named, each⟩ := Suite.run_iff.mp reported
    obtain rfl : name = suite.name := named
    have results : List.Forall₂ (Case.Gives mode suite.name) suite.cases rs :=
      each.imp fun _ _ here => ⟨n, here⟩
    obtain ⟨lines, listed, same⟩ := caseLines_exist verbose suite.name rs
    have whole := Tested.loaded loads results listed
    rw [each.length_eq, ← same] at whole
    exact whole

theorem Forall₂.forall_iff {α β : Type} {related : α → β → Prop} {xs : List α} {ys : List β}
    {left : α → Prop} {right : β → Prop} (all : List.Forall₂ related xs ys)
    (same : ∀ x y, related x y → (right y ↔ left x)) : (∀ y ∈ ys, right y) ↔ ∀ x ∈ xs, left x := by
  induction all with
  | nil => simp
  | cons here _ ih => rw [List.forall_mem_cons, List.forall_mem_cons, ih, same _ _ here]

theorem Tested.code (tested : Tested files mode verbose path outcome) :
    (outcome.code = 0 ↔ ∃ suite, Suite.load files path = Except.ok suite ∧
      ∀ c ∈ suite.cases, c.Passes mode suite.name) ∧ outcome.code ≤ 1 := by
  cases tested with
  | unloaded failed => simp [failed]
  | @loaded suite rs lines failures loads results listed =>
    have passed : failures = 0 ↔ ∀ c ∈ suite.cases, c.Passes mode suite.name :=
      listed.failures.trans (Forall₂.forall_iff results fun _ _ gives => gives.passed)
    constructor
    · have only : (∃ other, Suite.load files path = Except.ok other ∧
          ∀ c ∈ other.cases, c.Passes mode other.name) ↔ failures = 0 := by
        rw [passed]
        constructor
        · intro found
          obtain ⟨other, again, all⟩ := found
          cases loads.symm.trans again
          exact all
        · intro all
          exact ⟨suite, loads, all⟩
      rw [only]
      dsimp only
      split <;> omega
    · dsimp only
      split <;> omega

theorem testSuites_cons (files : Files Id) (n : Nat) (verbose : Bool) (mode : UndefinedMode)
    (path : String) (rest : List String) :
    testSuites files n verbose mode (path :: rest) =
      (testSuite files n verbose mode path).bind fun first =>
        Option.map first.followedBy (testSuites files n verbose mode rest) := by
  rw [testSuites]
  cases testSuite files n verbose mode path <;> rfl

theorem testSuites_each (ran : testSuites files n verbose mode paths = some outcome) :
    ∃ each, List.Forall₂ (Tested files mode verbose) paths each ∧
      outcome.stdout = String.join (each.map Outcome.stdout) ∧
      outcome.stderr = String.join (each.map Outcome.stderr) ∧
      (outcome.code = 0 ↔ ∀ o ∈ each, o.code = 0) ∧ outcome.code ≤ 1 := by
  induction paths generalizing outcome with
  | nil =>
    cases ran
    exact ⟨[], .nil, rfl, rfl, by simp, by simp⟩
  | cons path rest ih =>
    rw [testSuites_cons] at ran
    obtain ⟨first, here, ran⟩ := Option.bind_eq_some_iff.mp ran
    obtain ⟨others, behind, rfl⟩ := Option.map_eq_some_iff.mp ran
    obtain ⟨each, tested, stdout, stderr, code, small⟩ := ih behind
    have firstTested := testSuite_tested here
    have firstSmall := firstTested.code.2
    refine ⟨first :: each, .cons firstTested tested, ?_, ?_, ?_, ?_⟩
    · rw [Outcome.followedBy, stdout, List.map_cons, String.join_cons]
    · rw [Outcome.followedBy, stderr, List.map_cons, String.join_cons]
    · rw [List.forall_mem_cons, ← code]
      simp only [Outcome.followedBy]
      omega
    · simp only [Outcome.followedBy]
      omega

theorem testSuite_kept (more : n ≤ k) (ran : testSuite files n verbose mode path = some outcome) :
    testSuite files k verbose mode path = some outcome := by
  cases loads : Suite.load files path with
  | error failure =>
    rw [testSuite_unloaded loads] at ran ⊢
    exact ran
  | ok suite =>
    rw [testSuite_loaded loads] at ran ⊢
    obtain ⟨report, reported, rfl⟩ := Option.map_eq_some_iff.mp ran
    rw [Suite.run_kept more reported, Option.map_some]

theorem testSuite_halts (verbose : Bool) : (∃ n outcome, testSuite files n verbose mode path = some outcome) ↔
    ∀ suite, Suite.load files path = Except.ok suite → ∀ c ∈ suite.cases, c.Halts mode suite.name := by
  cases loads : Suite.load files path with
  | error failure =>
    refine iff_of_true ⟨0, _, testSuite_unloaded loads⟩ ?_
    intro suite other
    cases other
  | ok suite =>
    simp only [testSuite_loaded loads]
    constructor
    · intro ran other same
      cases same
      obtain ⟨n, outcome, ran⟩ := ran
      obtain ⟨report, reported, -⟩ := Option.map_eq_some_iff.mp ran
      exact (suite.run_halts mode).mp ⟨n, report, reported⟩
    · intro halts
      obtain ⟨n, report, reported⟩ := (suite.run_halts mode).mpr (halts suite rfl)
      exact ⟨n, _, by rw [reported, Option.map_some]⟩

theorem testSuites_total : (∃ outcome, testSuites files n verbose mode paths = some outcome) ↔
    ∀ path ∈ paths, ∃ outcome, testSuite files n verbose mode path = some outcome := by
  induction paths with
  | nil => exact iff_of_true ⟨_, rfl⟩ (List.forall_mem_nil _)
  | cons path rest ih =>
    rw [List.forall_mem_cons, ← ih, testSuites_cons]
    constructor
    · intro ran
      obtain ⟨outcome, ran⟩ := ran
      obtain ⟨first, here, ran⟩ := Option.bind_eq_some_iff.mp ran
      obtain ⟨others, behind, -⟩ := Option.map_eq_some_iff.mp ran
      exact ⟨⟨first, here⟩, others, behind⟩
    · intro both
      obtain ⟨⟨first, here⟩, others, behind⟩ := both
      exact ⟨first.followedBy others, by rw [here, Option.bind_some, behind, Option.map_some]⟩

theorem testSuites_halts : (∃ n outcome, testSuites files n verbose mode paths = some outcome) ↔
    ∀ path ∈ paths, ∀ suite, Suite.load files path = Except.ok suite →
      ∀ c ∈ suite.cases, c.Halts mode suite.name := by
  simp only [testSuites_total, ← testSuite_halts verbose]
  constructor
  · intro all path member
    obtain ⟨n, all⟩ := all
    exact ⟨n, all path member⟩
  · intro each
    apply common_bound _ each
    intro path n k more ran
    obtain ⟨outcome, ran⟩ := ran
    exact ⟨outcome, testSuite_kept more ran⟩

theorem test_eq {arguments named : List String} {values : FlagValues}
    (flags : Flag.parseAll testFlags arguments = .ok (values, named))
    (chosen : suites files named = Except.ok (paths, mode)) (n : Nat) :
    test files n arguments = testSuites files n (Flag.isSet values "v") mode paths := by
  unfold test
  simp only [flags, chosen]
  rfl

-- The command succeeds exactly when every suite loads and every case of every suite passes. What
-- it writes is what each path contributes by itself, in order: a failed suite stops no later one.
theorem tests_pass_exactly (files : Files Id) (arguments named paths : List String)
    (values : FlagValues) (mode : UndefinedMode)
    (flags : Flag.parseAll testFlags arguments = .ok (values, named))
    (chosen : suites files named = Except.ok (paths, mode)) :
    ((∃ bound outcome, test files bound arguments = some outcome) ↔
      ∀ path ∈ paths, ∀ suite, Suite.load files path = Except.ok suite →
        ∀ c ∈ suite.cases, c.Halts mode suite.name) ∧
    ∀ bound outcome, test files bound arguments = some outcome →
      (outcome.code = 0 ↔ ∀ path ∈ paths, ∃ suite, Suite.load files path = Except.ok suite ∧
        ∀ c ∈ suite.cases, c.Passes mode suite.name) ∧
      (outcome.code ≠ 0 → outcome.code = 1) ∧
      ∃ each, List.Forall₂ (Tested files mode (Flag.isSet values "v")) paths each ∧
        outcome.stdout = String.join (each.map Outcome.stdout) ∧
        outcome.stderr = String.join (each.map Outcome.stderr) := by
  simp only [test_eq flags chosen]
  refine ⟨testSuites_halts, ?_⟩
  intro bound outcome ran
  obtain ⟨each, tested, stdout, stderr, code, small⟩ := testSuites_each ran
  refine ⟨?_, ?_, each, tested, stdout, stderr⟩
  · rw [code]
    exact Forall₂.forall_iff tested fun _ _ one => one.code.1
  · intro other
    omega

def failingTree : FileTree :=
  .directory [("a.yml", .file (Text.bytesOf
    "cases: [{name: p, source: 1;}, {name: q, source: 2;, error: {kind: lex}}]"))]

def failingOutcome : Outcome where
  code := 1
  stdout := "PASS a/p\nFAIL a/q: expected lex error, run succeeded\nFAIL a (1 of 2 cases failed)\n"
  stderr := "fixtures: open b.yml: open b.yml: no such file or directory\n"

theorem failingTree_tested :
    some failingOutcome = test (failingTree.files "/") 0 ["a.yml", "-v", "b.yml"] := by
  decide +kernel

theorem tests_pass_exactly_failing :
    (∃ outcome, test (failingTree.files "/") 0 ["a.yml", "-v", "b.yml"] = some outcome ∧
      outcome.code = 1) ∧
    ¬∀ path ∈ ["a.yml", "b.yml"], ∃ suite,
      Suite.load (failingTree.files "/") path = Except.ok suite ∧
        ∀ c ∈ suite.cases, c.Passes .strict suite.name := by
  obtain ⟨-, exact⟩ := tests_pass_exactly (failingTree.files "/") ["a.yml", "-v", "b.yml"]
    ["a.yml", "b.yml"] ["a.yml", "b.yml"] [("v", "true")] .strict rfl rfl
  have verdict := (exact 0 failingOutcome failingTree_tested.symm).1
  refine ⟨⟨failingOutcome, failingTree_tested.symm, rfl⟩, ?_⟩
  intro all
  exact absurd (verdict.mpr all) Nat.one_ne_zero

end CommandLine

end Minilang
