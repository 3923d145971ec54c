import Minilang.CommandLine.Basic
import Minilang.Files.Tree
import Minilang.Proofs.FixturePaths
import Minilang.Proofs.RunFailure
import Minilang.Proofs.Tracing

namespace Minilang

variable {options : RunOptions} {mode : UndefinedMode} {bound : Nat} {sink : Option Sink}
variable {path : String} {source : List UInt8} {body : List Stmt} {ending : Ending}

theorem untraced_lockstep (mode : UndefinedMode) (one two : Bool) (es : List Expr) :
    Lockstep ⟨mode, one⟩ ⟨mode, two⟩ es fun m k => m.untraced = k.untraced where
  evaluate {e m k} _ same := by
    obtain ⟨store, printed, trace, sink⟩ := m
    obtain ⟨_, _, other, _⟩ := k
    cases same
    exact ⟨_, _, _, rfl, rfl, rfl⟩
  print {m k} value same := by
    apply PrintsAlike.ofMap
    rw [← Machine.untraced_print, same, Machine.untraced_print]
  enter s same := by
    rw [Machine.untraced_enter, Machine.untraced_enter]
    exact same

theorem execute_iff {program : Program} : execute options bound sink (some program) = some ending ↔
    ∃ outcome after,
      execBlock options bound program.statements (.start .empty sink) = .ended outcome after ∧
      ending = ⟨some after, outcome.map fun fault => .inProgram program.path (.ofFault fault)⟩ := by
  simp only [execute]
  cases execBlock options bound program.statements (.start .empty sink) with
  | finished m =>
    constructor
    · intro ran
      cases ran
      exact ⟨none, m, rfl, rfl⟩
    · intro ran
      obtain ⟨outcome, after, ended, rfl⟩ := ran
      obtain ⟨rfl, rfl⟩ := Progress.finished_ended ended
      rfl
  | failed fault m =>
    constructor
    · intro ran
      cases ran
      exact ⟨some fault, m, rfl, rfl⟩
    · intro ran
      obtain ⟨outcome, after, ended, rfl⟩ := ran
      obtain ⟨rfl, rfl⟩ := Progress.failed_ended ended
      rfl
  | unfinished =>
    constructor
    · intro ran
      cases ran
    · intro ran
      obtain ⟨outcome, after, ended, -⟩ := ran
      cases outcome <;> cases ended

theorem runSource_traced (one two : Bool)
    (ended : runSource ⟨mode, one⟩ bound sink path source = some ending) :
    ∃ other, runSource ⟨mode, two⟩ bound sink path source = some other ∧
      other.output = ending.output ∧ other.failure = ending.failure := by
  unfold runSource at *
  cases compiled : Program.compile path source with
  | error failure =>
    simp only [compiled] at ended
    exact ⟨ending, ended, rfl, rfl⟩
  | ok program =>
    simp only [compiled] at ended
    obtain ⟨outcome, after, ran, rfl⟩ := execute_iff.mp ended
    obtain ⟨last, again, same⟩ := (untraced_lockstep mode one two _).ended rfl ran
    refine ⟨_, execute_iff.mpr ⟨outcome, last, again, rfl⟩, ?_, rfl⟩
    show last.untraced.output = after.untraced.output
    rw [same]

theorem runSource_ends_iff (one two : Bool) :
    (∃ ending, runSource ⟨mode, one⟩ bound sink path source = some ending) ↔
      ∃ ending, runSource ⟨mode, two⟩ bound sink path source = some ending := by
  constructor
  · intro ends
    obtain ⟨ending, ended⟩ := ends
    obtain ⟨other, again, -⟩ := runSource_traced one two ended
    exact ⟨other, again⟩
  · intro ends
    obtain ⟨ending, ended⟩ := ends
    obtain ⟨other, again, -⟩ := runSource_traced two one ended
    exact ⟨other, again⟩

theorem Manifest.mode_zero {given : Option Manifest} :
    Manifest.mode given = .zero ↔ ∃ m, given = some m ∧ m.undefined = "zero" := by
  cases given with
  | none => simp [Manifest.mode]
  | some m =>
    unfold Manifest.mode
    by_cases zero : m.undefined = "zero" <;> simp [zero]

namespace CommandLine

variable {files : Files Id} {file flag : String} {values : FlagValues} {arguments : List String}
variable {outcome : Outcome} {bytes : List UInt8}

-- Text that leaves what follows it at the start of a line.
def Complete (text : String) : Prop := text = "" ∨ ∃ lines, text = lines ++ "\n"

theorem Complete.append {one two : String} (first : Complete one) (second : Complete two) :
    Complete (one ++ two) := by
  rcases second with rfl | ⟨lines, rfl⟩
  · rw [String.append_empty]
    exact first
  · exact .inr ⟨one ++ lines, String.append_assoc.symm⟩

theorem complete_join {texts : List String} (each : ∀ text ∈ texts, Complete text) :
    Complete (String.join texts) := by
  induction texts with
  | nil => exact .inl rfl
  | cons text texts ih =>
    obtain ⟨here, behind⟩ := List.forall_mem_cons.mp each
    rw [String.join_cons]
    exact here.append (ih behind)

theorem traceText_complete (ending : Ending) : Complete ending.traceText := by
  apply complete_join
  intro text member
  obtain ⟨line, -, rfl⟩ := List.mem_map.mp member
  exact .inr ⟨_, rfl⟩

theorem namedEntry_eq (files : Files Id) (file : String) :
    ∃ mode warning, namedEntry files file = (⟨file, mode, warning⟩ : Entry) ∧ Complete warning ∧
      (mode = .zero ↔ ∃ m, Manifest.loadNearest files file = Except.ok m ∧ m.undefined = "zero") := by
  unfold namedEntry
  cases Manifest.loadNearest files file with
  | ok m =>
    refine ⟨Manifest.mode (some m), "", rfl, .inl rfl, ?_⟩
    rw [Manifest.mode_zero]
    constructor
    · rintro ⟨_, same, zero⟩
      cases same
      exact ⟨m, rfl, zero⟩
    · rintro ⟨_, same, zero⟩
      cases same
      exact ⟨m, rfl, zero⟩
  | error failure =>
    refine ⟨Manifest.mode none, _, rfl, ?_, ?_⟩
    · split
      · exact .inl rfl
      · refine .inr ⟨"warning: unable to load manifest (" ++ failure.message ++ "); using defaults", ?_⟩
        have last : "); using defaults\n" = "); using defaults" ++ "\n" := rfl
        rw [last, String.append_assoc, String.append_assoc, String.append_assoc]
    · apply iff_of_false
      · intro same
        cases same
      · intro found
        obtain ⟨_, same, -⟩ := found
        cases same

theorem chosenMode_eq (valid : flag = "" ∨ Text.lower flag = "error" ∨ Text.lower flag = "zero")
    (given : UndefinedMode) : ∃ mode, chosenMode flag given = .ok mode ∧
      (mode = .zero ↔ flag ≠ "" ∧ Text.lower flag = "zero" ∨ flag = "" ∧ given = .zero) := by
  unfold chosenMode
  by_cases empty : flag = ""
  · exact ⟨given, by rw [if_pos empty], by simp [empty]⟩
  · rw [if_neg empty]
    rcases valid with none | strict | zero
    · exact absurd none empty
    · rw [strict]
      exact ⟨.strict, rfl, by simp [empty]⟩
    · rw [zero]
      exact ⟨.zero, rfl, by simp [empty]⟩

def Counts (files : Files Id) (file flag : String) (mode : UndefinedMode) : Prop :=
  mode = .zero ↔ flag ≠ "" ∧ Text.lower flag = "zero" ∨
    flag = "" ∧ ∃ m, Manifest.loadNearest files file = Except.ok m ∧ m.undefined = "zero"

theorem Counts.unique {mode other : UndefinedMode} (one : Counts files file flag mode)
    (two : Counts files file flag other) : mode = other := by
  have same : mode = .zero ↔ other = .zero := one.trans two.symm
  cases mode <;> cases other <;> simp_all

theorem Counts.unloaded {other : Files Id} (counts : Counts files file flag mode)
    (unloaded : ∀ m, Manifest.loadNearest files file ≠ Except.ok m)
    (missing : Manifest.loadNearest other file = Except.error Failure.manifestNotFound) :
    Counts other file flag mode := by
  apply counts.trans
  apply or_congr_right
  apply and_congr_right
  intro _
  apply iff_of_false
  · intro found
    obtain ⟨m, loads, -⟩ := found
    exact unloaded m loads
  · intro found
    obtain ⟨m, loads, -⟩ := found
    cases missing.symm.trans loads

theorem run_named (flags : Flag.parseAll runFlags arguments = .ok (values, [file])) (n : Nat) :
    run files n arguments =
      match chosenMode (Flag.value values "undefined") (namedEntry files file).mode with
      | .error message => some (.stopped ((namedEntry files file).warning ++ message))
      | .ok mode => (runFile files n ⟨mode, Flag.isSet values "trace"⟩ (namedEntry files file).path).map
          (·.warned (namedEntry files file).warning) := by
  unfold run
  simp only [flags]
  rfl

theorem run_eq (flags : Flag.parseAll runFlags arguments = .ok (values, [file]))
    (valid : Flag.value values "undefined" = "" ∨
      Text.lower (Flag.value values "undefined") = "error" ∨
      Text.lower (Flag.value values "undefined") = "zero")
    (counts : Counts files file (Flag.value values "undefined") mode) :
    ∃ warning, Complete warning ∧ ∀ n, run files n arguments =
      (runFile files n ⟨mode, Flag.isSet values "trace"⟩ file).map (·.warned warning) := by
  obtain ⟨given, warning, entry, complete, project⟩ := namedEntry_eq files file
  obtain ⟨chosen, accepted, zero⟩ := chosenMode_eq valid given
  rw [project] at zero
  obtain rfl : chosen = mode := Counts.unique zero counts
  refine ⟨warning, complete, ?_⟩
  intro n
  rw [run_named flags, entry, accepted]

theorem runFile_unread {cause : SystemError} (unread : files.contents file = Except.error cause)
    (options : RunOptions) (n : Nat) : runFile files n options file = some (.stopped
      ((Failure.context ("driver: read " ++ file) (Files.readFailure file cause)).describe ++ "\n")) := by
  unfold runFile loadProgram
  simp only [unread]
  rfl

theorem loadProgram_read (read : files.contents file = Except.ok bytes) :
    loadProgram files file = Program.compile file bytes := by
  unfold loadProgram
  simp only [read]
  rfl

theorem compile_path {program : Program} (compiled : Program.compile path source = .ok program) :
    program.path = path := by
  unfold Program.compile at compiled
  split at compiled
  · cases compiled
  · split at compiled
    · cases compiled
    · cases compiled
      rfl

theorem runFile_read (read : files.contents file = Except.ok bytes) (options : RunOptions) (n : Nat) :
    runFile files n options file =
      (runSource options n none file bytes).map Outcome.ofEnding := by
  unfold runFile runSource
  simp only [loadProgram_read read]
  cases compiled : Program.compile file bytes with
  | error failure => simp [Outcome.ofEnding, Outcome.stopped, Ending.output, Ending.traceText]; rfl
  | ok program =>
    have placed := compile_path compiled
    subst placed
    rfl

-- Of all files, a program's own is the only one that its run depends on.
theorem runFile_congr {other : Files Id} (same : other.contents file = files.contents file)
    (options : RunOptions) (n : Nat) : runFile other n options file = runFile files n options file := by
  unfold runFile loadProgram
  rw [same]

theorem runSource_failure {failure : Failure}
    (ended : runSource options bound sink path source = some ending)
    (failed : ending.failure = some failure) : ∃ cause, failure = .inProgram path cause := by
  cases runSource_runsTo ended with
  | unscanned => exact ⟨_, (Option.some.inj failed).symm⟩
  | unparsed => exact ⟨_, (Option.some.inj failed).symm⟩
  | ran _ _ _ =>
    obtain ⟨fault, -, same⟩ := Option.map_eq_some_iff.mp failed
    exact ⟨_, same.symm⟩

theorem ofEnding_code (ending : Ending) :
    ((Outcome.ofEnding ending).code = 0 ↔ ending.failure = none) ∧ (Outcome.ofEnding ending).code ≤ 1 := by
  cases failed : ending.failure <;> simp [Outcome.ofEnding, failed]

theorem ofEnding_failed {failure : Failure} (failed : ending.failure = some failure) :
    (Outcome.ofEnding ending).stderr = ending.traceText ++ (failure.describe ++ "\n") := by
  simp [Outcome.ofEnding, failed]

-- A program that is named runs as its source does, at the mode that counts for it, whether it is
-- traced or not. A manifest that is missing or no good shows neither in what the run prints nor
-- in how it ends.
theorem named_program_runs (files : Files Id) (arguments : List String) (values : FlagValues)
    (file : String) (mode : UndefinedMode)
    (flags : Flag.parseAll runFlags arguments = .ok (values, [file]))
    (valid : Flag.value values "undefined" = "" ∨
      Text.lower (Flag.value values "undefined") = "error" ∨
      Text.lower (Flag.value values "undefined") = "zero")
    (counts : mode = .zero ↔ Flag.value values "undefined" ≠ "" ∧
        Text.lower (Flag.value values "undefined") = "zero" ∨
      Flag.value values "undefined" = "" ∧
        ∃ m, Manifest.loadNearest files file = Except.ok m ∧ m.undefined = "zero") :
    (∀ cause, files.contents file = Except.error cause → ∀ bound,
      ∃ outcome, run files bound arguments = some outcome ∧ outcome.code = 1 ∧ outcome.stdout = "") ∧
    (∀ bytes, files.contents file = Except.ok bytes → ∀ tracing bound,
      ((∃ outcome, run files bound arguments = some outcome) ↔
        ∃ ending, runSource ⟨mode, tracing⟩ bound none file bytes = some ending) ∧
      ∀ outcome ending, run files bound arguments = some outcome →
        runSource ⟨mode, tracing⟩ bound none file bytes = some ending →
        outcome.stdout = ending.output ∧ (outcome.code = 0 ↔ ending.failure = none) ∧
          outcome.code ≤ 1 ∧ ∀ failure, ending.failure = some failure →
            (∃ cause, failure = .inProgram file cause) ∧
              ∃ before, Complete before ∧ outcome.stderr = before ++ (failure.describe ++ "\n")) ∧
    ∀ other : Files Id, other.contents file = files.contents file →
      (∀ m, Manifest.loadNearest files file ≠ Except.ok m) →
      Manifest.loadNearest other file = Except.error Failure.manifestNotFound →
      ∀ bound, (run files bound arguments).map (fun o => (o.code, o.stdout)) =
        (run other bound arguments).map fun o => (o.code, o.stdout) := by
  obtain ⟨warning, complete, ran⟩ := run_eq flags valid counts
  refine ⟨?_, ?_, ?_⟩
  · intro cause unread bound
    rw [ran, runFile_unread unread]
    exact ⟨_, rfl, rfl, rfl⟩
  · intro bytes read tracing bound
    have ends_iff (outcome : Outcome) : run files bound arguments = some outcome ↔
        ∃ ending, runSource ⟨mode, Flag.isSet values "trace"⟩ bound none file bytes = some ending ∧
          (Outcome.ofEnding ending).warned warning = outcome := by
      rw [ran, runFile_read read, Option.map_map]
      exact Option.map_eq_some_iff
    simp only [ends_iff]
    constructor
    · rw [← runSource_ends_iff (Flag.isSet values "trace") tracing]
      constructor
      · intro ends
        obtain ⟨_, ending, ended, -⟩ := ends
        exact ⟨ending, ended⟩
      · intro ends
        obtain ⟨ending, ended⟩ := ends
        exact ⟨_, ending, ended, rfl⟩
    · intro outcome ending ends ended
      obtain ⟨other, again, rfl⟩ := ends
      -- The command traces as its flag says, the run beside it as one likes.
      obtain ⟨third, same, output, failure⟩ := runSource_traced _ (Flag.isSet values "trace") ended
      obtain rfl := Option.some.inj (again.symm.trans same)
      obtain ⟨code, small⟩ := ofEnding_code other
      refine ⟨output, failure ▸ code, small, ?_⟩
      intro cause failed
      refine ⟨runSource_failure ended failed, warning ++ other.traceText,
        complete.append (traceText_complete other), ?_⟩
      have text := ofEnding_failed (failure.trans failed)
      show warning ++ (Outcome.ofEnding other).stderr = _
      rw [text, String.append_assoc]
  · intro other same unloaded missing bound
    obtain ⟨silence, -, again⟩ := run_eq flags valid (Counts.unloaded counts unloaded missing)
    rw [ran, again, runFile_congr same, Option.map_map, Option.map_map]
    rfl

def zeroTree : FileTree :=
  .directory [("minilang.yml", .file (Text.bytesOf "name: n\nundefined: Zero\n")),
    ("a.mini", .file [112, 114, 105, 110, 116, 32, 120, 59, 49, 47, 120, 59])]

def zeroFailure : Failure :=
  .inProgram "a.mini" (.runtime ⟨⟨0, 9⟩, .divisionByZero, "division by zero", ""⟩)

def zeroEnd : Ending where
  machine := some { Machine.start .empty none with printed := #[0] }
  failure := some zeroFailure

theorem zeroTree_loads : Manifest.loadNearest (zeroTree.files "/") "a.mini" =
    Except.ok ⟨"/minilang.yml", "n", "", "zero", [], false⟩ :=
  Manifest.ok_of_toOption (by decide +kernel)

theorem named_program_runs_zero : ∃ outcome before,
    run (zeroTree.files "/") 0 ["a.mini", "--trace"] = some outcome ∧ outcome.stdout = "0\n" ∧
      outcome.code = 1 ∧ outcome.stderr = before ++ (zeroFailure.describe ++ "\n") := by
  have ended : runSource ⟨.zero, false⟩ 0 none "a.mini"
      [112, 114, 105, 110, 116, 32, 120, 59, 49, 47, 120, 59] = some zeroEnd := rfl
  have flags : Flag.parseAll runFlags ["a.mini", "--trace"] = .ok ([("trace", "true")], ["a.mini"]) :=
    Manifest.ok_of_toOption (by decide +kernel)
  have read : (zeroTree.files "/").contents "a.mini" =
      Except.ok [112, 114, 105, 110, 116, 32, 120, 59, 49, 47, 120, 59] := rfl
  have zero : ∃ m, Manifest.loadNearest (zeroTree.files "/") "a.mini" = Except.ok m ∧
      m.undefined = "zero" := ⟨_, zeroTree_loads, rfl⟩
  obtain ⟨-, reads, -⟩ := named_program_runs (zeroTree.files "/") ["a.mini", "--trace"]
    [("trace", "true")] "a.mini" .zero flags (.inl rfl) (iff_of_true rfl (.inr ⟨rfl, zero⟩))
  obtain ⟨ends, exact⟩ := reads _ read false 0
  obtain ⟨outcome, ran⟩ := ends.mpr ⟨zeroEnd, ended⟩
  obtain ⟨stdout, code, small, failed⟩ := exact outcome zeroEnd ran ended
  obtain ⟨-, before, -, stderr⟩ := failed zeroFailure rfl
  have printed : zeroEnd.output = "0\n" := by decide +kernel
  refine ⟨outcome, before, ran, stdout.trans printed, ?_, stderr⟩
  have other : outcome.code ≠ 0 := fun zero => absurd (code.mp zero) (by simp [zeroEnd])
  omega

end CommandLine

end Minilang
