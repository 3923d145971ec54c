import Minilang.Proofs.FrontEnd
import Minilang.Proofs.LineScanning
import Minilang.Proofs.Lockstep
import Minilang.Proofs.Rejection

namespace Minilang

open Alphabet

theorem source_line {line text : List UInt8} {p q : List Stmt} (first : Parse.source line = .ok p)
    (second : Parse.source text = .ok q) :
    Parse.source (line ++ newline :: text) =
      .ok (p ++ Stmt.relabelAll (Token.moved (.lower (line.count newline + 1))) q) := by
  obtain ⟨ts, scanned, parsed⟩ := source_ok.mp first
  obtain ⟨us, again, behind⟩ := source_ok.mp second
  have moved := (Parse.program_relabel (Token.moved_keeps (.lower (line.count newline + 1))) us).1 q
    behind
  refine source_ok.mpr ⟨ts ++ us.map (Token.moved (.lower (line.count newline + 1))), ?_, ?_⟩
  · rw [Token.scan_line, scanned, again]
    rfl
  · rw [Parse.program_behind parsed, moved]
    rfl

section Runs

variable {options : RunOptions} {bound : Nat} {p q body : List Stmt} {m after : Machine}
  {outcome : Option Fault} {store : Store} {sink : Option Sink}

theorem execBlock_append (p q : List Stmt) (m : Machine) :
    execBlock options bound (p ++ q) m =
      (execBlock options bound p m).andThen (execBlock options bound q) := by
  induction p generalizing m with
  | nil => rw [List.nil_append, execBlock_nil]; rfl
  | cons s p ih =>
    rw [List.cons_append, execBlock_cons, execBlock_cons]
    cases s.exec options bound m with
    | finished mid => exact ih mid
    | failed | unfinished => rfl

theorem ends_append : Ends options (p ++ q) m outcome after ↔
    (∃ fault, outcome = some fault ∧ Ends options p m (some fault) after) ∨
      ∃ mid, Ends options p m none mid ∧ Ends options q mid outcome after := by
  constructor
  · rintro ⟨bound, ran⟩
    rw [execBlock_append] at ran
    rcases andThen_ended ran with ⟨mid, first, second⟩ | ⟨fault, same, stopped⟩
    · exact .inr ⟨mid, ⟨bound, first⟩, bound, second⟩
    · exact .inl ⟨fault, same, bound, stopped⟩
  · rintro (⟨fault, rfl, bound, stopped⟩ | ⟨mid, ⟨n, first⟩, k, second⟩)
    · refine ⟨bound, ?_⟩
      rw [execBlock_append, stopped]
      rfl
    · refine ⟨max n k, ?_⟩
      rw [execBlock_append, (execBlock_kept options (Nat.le_max_left n k) p m).ended first]
      exact (execBlock_kept options (Nat.le_max_right n k) q mid).ended second

def Machine.following (earlier m : Machine) : Machine :=
  { m with printed := earlier.printed ++ m.printed, trace := earlier.trace ++ m.trace }

@[simp]
theorem following_start (m : Machine) : m.following (.start m.store m.sink) = m := by
  simp [Machine.following, Machine.start]

@[simp]
theorem following_output (earlier m : Machine) :
    (earlier.following m).output = earlier.output ++ m.output := by
  simp [Machine.following, Machine.output, Machine.outputLines, String.join_append]

-- A run never looks at what was printed or traced before it.
theorem following_lockstep (options : RunOptions) (es : List Expr) (earlier : Machine) :
    Lockstep options options es fun m k => k = earlier.following m where
  evaluate _ related := by
    subst related
    exact ⟨_, _, _, rfl, rfl, rfl⟩
  print {m k} value related := by
    subst related
    rcases m with ⟨store, printed, trace, none | ⟨_ | n, error⟩⟩
    · exact .taken (by simp [Machine.following])
    · exact .refused
    · exact .taken (by simp [Machine.following])
  enter {m k} s related := by
    subst related
    unfold Machine.enter Machine.record
    split
    · split
      · simp [Machine.following]
      · rfl
    · rfl

theorem ends_following : Ends options body m outcome after ↔
    ∃ last, Ends options body (.start m.store m.sink) outcome last ∧ after = m.following last := by
  have steps := following_lockstep options (Stmt.allExpressions body) m
  have start := (following_start m).symm
  constructor
  · intro ran
    obtain ⟨last, ended, same⟩ := steps.symm.ends start ran
    exact ⟨last, ended, same⟩
  · rintro ⟨last, ran, rfl⟩
    obtain ⟨after, ended, rfl⟩ := steps.ends start ran
    exact ended

theorem ends_moved_following {h : Position → Position} :
    Ends options (Stmt.relabelAll (Token.moved h) body) m outcome after ↔
      ∃ other last, Ends options body (.start m.store m.sink) other last ∧
        outcome = other.map (Fault.moved h) ∧ after = m.following (last.moved h) := by
  rw [ends_following]
  constructor
  · rintro ⟨moved, ran, rfl⟩
    rw [← Machine.start_moved, ends_moved] at ran
    obtain ⟨other, last, ended, same, rfl⟩ := ran
    exact ⟨other, last, ended, same, rfl⟩
  · rintro ⟨other, last, ran, same, rfl⟩
    refine ⟨last.moved h, ?_, rfl⟩
    rw [← Machine.start_moved, ends_moved]
    exact ⟨other, last, ran, same, rfl⟩

end Runs

-- How a session ends that runs one program, and then another one on what the first one left,
-- if that ended without a fault: with which fault, output and store. The faults of the second
-- program are told at other places.
inductive InTurn (options : RunOptions) (h : Position → Position) (p q : List Stmt) (store : Store)
    (sink : Option Sink) : Option Fault → String → Store → Prop where
  | stopped (ran : Ends options p (.start store sink) (some fault) after) :
      InTurn options h p q store sink (some fault) after.output after.store
  | both (ran : Ends options p (.start store sink) none mid)
      (again : Ends options q (.start mid.store mid.sink) outcome last) :
      InTurn options h p q store sink (outcome.map (Fault.moved h)) (mid.output ++ last.output)
        last.store

theorem ends_in_turn (options : RunOptions) (h : Position → Position) (p q : List Stmt)
    (store : Store) (sink : Option Sink) (outcome : Option Fault) (output : String) (last : Store) :
    (∃ after, Ends options (p ++ Stmt.relabelAll (Token.moved h) q) (.start store sink) outcome
        after ∧ after.output = output ∧ after.store = last) ↔
      InTurn options h p q store sink outcome output last := by
  constructor
  · rintro ⟨after, ran, rfl, rfl⟩
    rcases ends_append.mp ran with ⟨fault, rfl, stopped⟩ | ⟨mid, first, second⟩
    · exact .stopped stopped
    · obtain ⟨other, last, ended, rfl, rfl⟩ := ends_moved_following.mp second
      have output : (mid.following (last.moved h)).output = mid.output ++ last.output :=
        following_output mid _
      rw [output]
      exact .both first ended
  · intro session
    cases session with
    | stopped ran => exact ⟨_, ends_append.mpr (.inl ⟨_, rfl, ran⟩), rfl, rfl⟩
    | both ran again =>
      have second := ends_moved_following (h := h).mpr ⟨_, _, again, rfl, rfl⟩
      exact ⟨_, ends_append.mpr (.inr ⟨_, ran, second⟩), following_output _ _, rfl⟩

theorem concatenation_runs_in_turn (line text : List UInt8) (p q : List Stmt)
    (first : Parse.source line = .ok p) (second : Parse.source text = .ok q) :
    ∃ joined, Parse.source (line ++ newline :: text) = .ok joined ∧
      ∀ options store sink outcome output last,
        (∃ after, Ends options joined (.start store sink) outcome after ∧
          after.output = output ∧ after.store = last) ↔
        InTurn options (.lower (line.count newline + 1)) p q store sink outcome output last :=
  ⟨_, source_line first second, fun options store sink => ends_in_turn options _ p q store sink⟩

theorem concatenation_runs_in_turn_division :
    let error (row : Int) : Fault :=
      .runtime ⟨⟨row, 1⟩, .divisionByZero, "division by zero", ""⟩
    let bound : Store := .ofBindings [("x", 1)]
    (∃ q, Parse.source [10, 120, 47, 48, 59] = .ok q ∧
      Ends {} q (.start bound none) (some (error 1)) (.start bound none)) ∧
    ∃ joined, Parse.source ([120, 61, 49, 59] ++ newline :: [10, 120, 47, 48, 59]) = .ok joined ∧
      ∃ after, Ends {} joined (.start .empty none) (some (error 2)) after ∧
        after.output = "" ∧ after.store = bound := by
  intro error bound
  let p : List Stmt := [.expr (.assign ⟨⟨0, 1⟩, .operator, "=", none⟩
    (some ⟨⟨⟨0, 0⟩, .identifier, "x", none⟩, "x"⟩) (.number ⟨⟨0, 2⟩, .number, "1", some 1⟩ (some 1)))]
  let q : List Stmt := [.expr (.binary ⟨⟨1, 1⟩, .operator, "/", none⟩ "/"
    (.ident ⟨⟨1, 0⟩, .identifier, "x", none⟩ "x")
    (.number ⟨⟨1, 2⟩, .number, "0", some 0⟩ (some 0)))]
  have first : Ends {} p (.start .empty none) none (.start bound none) := ⟨0, rfl⟩
  have second : Ends {} q (.start bound none) (some (error 1)) (.start bound none) := ⟨0, rfl⟩
  obtain ⟨joined, parsed, runs⟩ :=
    concatenation_runs_in_turn [120, 61, 49, 59] [10, 120, 47, 48, 59] p q rfl rfl
  refine ⟨⟨q, rfl, second⟩, joined, parsed, (runs _ _ _ _ _ _).mpr ?_⟩
  exact InTurn.both first second

end Minilang
