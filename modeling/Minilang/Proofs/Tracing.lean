import Minilang.Proofs.Lockstep
import Minilang.Proofs.OutputLimit

namespace Minilang

def Machine.untraced (m : Machine) : Machine := { m with trace := #[] }

@[simp]
theorem Machine.enter_silent (mode : UndefinedMode) (s : Stmt) (m : Machine) :
    m.enter ⟨mode, false⟩ s = m := by
  unfold enter
  split <;> rfl

@[simp]
theorem Machine.untraced_enter (options : RunOptions) (s : Stmt) (m : Machine) :
    (m.enter options s).untraced = m.untraced := by
  obtain ⟨trace, same⟩ := m.enter_eq options s
  rw [same]
  rfl

@[simp]
theorem Machine.untraced_print (m : Machine) (value : Int) :
    m.untraced.print value = (m.print value).map untraced := by
  rcases m with ⟨store, printed, trace, _ | ⟨_ | n, error⟩⟩ <;> rfl

theorem traced_lockstep (mode : UndefinedMode) (es : List Expr) :
    Lockstep ⟨mode, true⟩ ⟨mode, false⟩ es fun m k => k = m.untraced where
  evaluate _ same := by
    subst same
    exact ⟨_, _, _, rfl, rfl, rfl⟩
  print {m k} value same := by
    subst same
    rw [Machine.untraced_print]
    cases m.print value with
    | error error => exact .refused
    | ok after => exact .taken rfl
  enter s same := by
    rw [Machine.enter_silent, Machine.untraced_enter]
    exact same

theorem ends_untraced (mode : UndefinedMode) (body : List Stmt) (store : Store) (sink : Option Sink)
    (outcome : Option Fault) (last : Machine) :
    Ends ⟨mode, false⟩ body (.start store sink) outcome last ↔
      ∃ after, Ends ⟨mode, true⟩ body (.start store sink) outcome after ∧ last = after.untraced := by
  have alike := traced_lockstep mode (Stmt.allExpressions body)
  have begins : Machine.start store sink = (Machine.start store sink).untraced := rfl
  constructor
  · intro silent
    exact alike.symm.ends begins silent
  · rintro ⟨after, traced, rfl⟩
    obtain ⟨last, silent, rfl⟩ := alike.ends begins traced
    exact silent

def NodeKind.names (kind : NodeKind) (line : String) : Bool :=
  line.toList.takeWhile (· != ' ') == kind.text.toList

theorem NodeKind.text_word (kind : NodeKind) (rest : List Char) :
    (kind.text.toList ++ ' ' :: rest).takeWhile (· != ' ') = kind.text.toList := by
  cases kind <;> rfl

theorem NodeKind.text_beq (kind other : NodeKind) :
    (other.text.toList == kind.text.toList) = decide (other = kind) := by
  cases kind <;> cases other <;> rfl

theorem NodeKind.names_traceLine (kind : NodeKind) (entry : NodeKind × Position) :
    kind.names (Machine.traceLine entry) = decide (entry.1 = kind) := by
  have line : (Machine.traceLine entry).toList =
      entry.1.text.toList ++ ' ' :: (['a', 't', ' '] ++ entry.2.text.toList) := by
    simp [Machine.traceLine]
  rw [names, line, text_word, text_beq]

def Stmt.prints : Stmt → Nat
  | .print _ _ => 1
  | .expr _ | .branch _ _ _ | .loop _ _ _ => 0

def Machine.tracedPrints (m : Machine) : Nat := m.trace.toList.countP (·.1 = .print)

theorem Machine.countP_traceLines (m : Machine) :
    m.traceLines.countP NodeKind.print.names = m.tracedPrints := by
  rw [traceLines, List.countP_map, tracedPrints]
  congr 1
  funext entry
  exact NodeKind.names_traceLine .print entry

def Task.ofPrint : Task → Bool
  | .statement (.print _ _) | .write _ => true
  | _ => false

def Task.isWrite : Task → Bool
  | .write _ => true
  | _ => false

def Pending.inPrint (c : Pending) : Bool := c.tasks.head?.any Task.ofPrint

-- The run ended inside a print statement: its operand failed, or its write.
def StopsInPrint (options : RunOptions) (body : List Stmt) (m : Machine) (outcome : Option Fault)
    (after : Machine) : Prop :=
  ∃ c, ComesTo options (.ofProgram body m) c ∧ Halts options c outcome after ∧ c.inPrint

-- Each print that was traced has written its line, or is about to.
def Pending.Balanced (c : Pending) : Prop :=
  c.machine.tracedPrints = c.machine.printed.size + c.tasks.countP Task.isWrite

section Account

variable {mode : UndefinedMode} {c d : Pending} {m after : Machine} {outcome : Option Fault}
  {t : Task} {ts : List Task}

theorem tracedPrints_enter (mode : UndefinedMode) (s : Stmt) (m : Machine) :
    (m.enter ⟨mode, true⟩ s).tracedPrints = m.tracedPrints + s.prints := by
  cases s with
  | expr e => cases e <;> simp [Machine.enter, Machine.record, Machine.tracedPrints, Stmt.node?,
      Expr.node?, Stmt.prints]
  | branch | loop | print =>
    simp [Machine.enter, Machine.record, Machine.tracedPrints, Stmt.node?, Stmt.prints]

theorem countP_statements (body : List Stmt) : (body.map Task.statement).countP Task.isWrite = 0 := by
  simp [List.countP_eq_zero, Task.isWrite]

theorem countP_roundTasks (e : Expr) (body : List Stmt) (value : Int) :
    (roundTasks e body value).countP Task.isWrite = 0 := by
  unfold roundTasks
  split
  · rw [List.countP_append, countP_statements]
    rfl
  · rfl

theorem countP_nextTasks (s : Stmt) (value : Int) :
    (s.nextTasks value).countP Task.isWrite = s.prints := by
  cases s with
  | expr | print => rfl
  | branch origin e body =>
    simp only [Stmt.nextTasks]
    split
    · exact countP_statements body
    · rfl
  | loop origin e body => exact countP_roundTasks e body value

theorem balance_enter {n : Nat} (balance : m.tracedPrints = m.printed.size + n)
    (mode : UndefinedMode) (s : Stmt) (store : Store) :
    ({ m.enter ⟨mode, true⟩ s with store := store } : Machine).tracedPrints =
      (m.enter ⟨mode, true⟩ s).printed.size + (s.prints + n) := by
  change (m.enter ⟨mode, true⟩ s).tracedPrints = _
  rw [tracedPrints_enter, Machine.enter_printed, balance]
  omega

theorem countP_cons (t : Task) (ts : List Task) :
    (t :: ts).countP Task.isWrite = ts.countP Task.isWrite + t.isWrite.toNat := by
  rw [List.countP_cons]
  cases t.isWrite <;> rfl

theorem Next.balanced (step : Next ⟨mode, true⟩ c d) (balanced : c.Balanced) : d.Balanced := by
  unfold Pending.Balanced at balanced ⊢
  cases step with
  | @statement store s rest m value found =>
    rw [countP_cons] at balanced
    rw [List.countP_append, countP_nextTasks]
    exact balance_enter balanced mode s store
  | round found =>
    rw [countP_cons] at balanced
    rw [List.countP_append, countP_roundTasks, Nat.zero_add]
    exact balanced
  | write written =>
    obtain ⟨sink, rfl⟩ := Machine.print_eq written
    rw [countP_cons] at balanced
    simp only [Task.isWrite, Bool.toNat_true, Array.size_push] at balanced ⊢
    rw [Nat.add_right_comm]
    exact balanced

theorem ComesTo.balanced (path : ComesTo ⟨mode, true⟩ c d) (balanced : c.Balanced) : d.Balanced := by
  induction path with
  | refl => exact balanced
  | tail _ step ih => exact step.balanced ih

theorem Pending.Prompt.countP (prompt : Pending.Prompt ⟨t :: ts, m⟩) : ts.countP Task.isWrite = 0 := by
  apply List.countP_eq_zero.mpr
  intro later member
  cases later with
  | statement | round => simp [Task.isWrite]
  | write value => exact absurd member (prompt value)

-- Where a run ends nothing waits but the value that could not be written, so a print too many
-- was traced just there, or where the operand of a print failed.
theorem Halts.account (halts : Halts ⟨mode, true⟩ c outcome after) (balanced : c.Balanced)
    (prompt : c.Prompt) : after.tracedPrints = after.printed.size + c.inPrint.toNat := by
  unfold Pending.Balanced at balanced
  cases halts with
  | done => exact balanced
  | @statement store s rest m fault failed =>
    rw [countP_cons, prompt.countP] at balanced
    have inside : (Pending.mk (.statement s :: rest) m).inPrint.toNat = s.prints := by
      cases s <;> rfl
    rw [inside]
    exact balance_enter balanced mode s store
  | round failed =>
    rw [countP_cons, prompt.countP] at balanced
    exact balanced
  | write closed =>
    rw [countP_cons, prompt.countP] at balanced
    exact balanced

theorem ofProgram_balanced (body : List Stmt) (store : Store) (sink : Option Sink) :
    (Pending.ofProgram body (.start store sink)).Balanced := by
  unfold Pending.Balanced Pending.ofProgram
  rw [countP_statements]
  rfl

theorem Halts.lines {body : List Stmt} {store : Store} {sink : Option Sink}
    (halts : Halts ⟨mode, true⟩ c outcome after)
    (path : ComesTo ⟨mode, true⟩ (.ofProgram body (.start store sink)) c) :
    after.traceLines.countP NodeKind.print.names = after.outputLines.length + c.inPrint.toNat := by
  have balanced := path.balanced (ofProgram_balanced body store sink)
  have lines : after.outputLines.length = after.printed.size := by
    simp [Machine.outputLines]
  rw [Machine.countP_traceLines, halts.account balanced path.prompt, lines]

end Account

theorem tracing_observes (mode : UndefinedMode) (sink : Option Sink) (store : Store)
    (body : List Stmt) :
    let start : Machine := .start store sink
    (∀ outcome last, Ends ⟨mode, false⟩ body start outcome last ↔
      ∃ after, Ends ⟨mode, true⟩ body start outcome after ∧ last = after.untraced) ∧
    ∀ outcome after, Ends ⟨mode, true⟩ body start outcome after →
      (StopsInPrint ⟨mode, true⟩ body start outcome after →
        after.traceLines.countP NodeKind.print.names = after.outputLines.length + 1) ∧
      (¬StopsInPrint ⟨mode, true⟩ body start outcome after →
        after.traceLines.countP NodeKind.print.names = after.outputLines.length) := by
  intro start
  refine ⟨ends_untraced mode body store sink, fun outcome after ran => ⟨?_, ?_⟩⟩
  · rintro ⟨c, path, halts, inside⟩
    rw [halts.lines path, inside]
    rfl
  · intro outside
    obtain ⟨c, path, halts⟩ := ends_stepwise.mp ran
    have other : c.inPrint = false := by
      apply Bool.eq_false_iff.mpr
      intro inside
      exact outside ⟨c, path, halts, inside⟩
    rw [halts.lines path, other]
    rfl

theorem tracing_observes_full :
    let print (value : Int) : Stmt := .print default (.number default (some value))
    let entry : NodeKind × Position := (.print, (default : Token).position)
    let after : Machine := ⟨.empty, #[1], #[entry, entry], some ⟨0, "full"⟩⟩
    let done : Machine := ⟨.empty, #[1], #[entry], some ⟨0, "full"⟩⟩
    Ends ⟨.strict, true⟩ [print 1, print 2] (.start .empty (some ⟨1, "full"⟩))
      (some (.closedOutput "full")) after ∧
    Ends ⟨.strict, false⟩ [print 1, print 2] (.start .empty (some ⟨1, "full"⟩))
      (some (.closedOutput "full")) ⟨.empty, #[1], #[], some ⟨0, "full"⟩⟩ ∧
    after.traceLines.countP NodeKind.print.names = after.outputLines.length + 1 ∧
    Ends ⟨.strict, true⟩ [print 1] (.start .empty (some ⟨1, "full"⟩)) none done ∧
    done.traceLines.countP NodeKind.print.names = done.outputLines.length := by
  intro print entry after done
  let options : RunOptions := ⟨.strict, true⟩
  let start : Machine := .start .empty (some ⟨1, "full"⟩)
  have ran : Ends options [print 1, print 2] start (some (.closedOutput "full")) after := ⟨0, rfl⟩
  have first : Next options ⟨[.statement (print 1), .statement (print 2)], start⟩
      ⟨[.write 1, .statement (print 2)], start.enter options (print 1)⟩ := .statement rfl
  have second : Next options ⟨[.write 1, .statement (print 2)], start.enter options (print 1)⟩
      ⟨[.statement (print 2)], done⟩ := .write rfl
  have third : Next options ⟨[.statement (print 2)], done⟩ ⟨[.write 2], after⟩ := .statement rfl
  have stops : StopsInPrint options [print 1, print 2] start (some (.closedOutput "full")) after :=
    ⟨⟨[.write 2], after⟩, .head first (.head second (.single third)), .write rfl, rfl⟩
  have finished : Ends options [print 1] start none done := ⟨0, rfl⟩
  have outside : ¬StopsInPrint options [print 1] start none done := by
    rintro ⟨c, path, halts, inside⟩
    cases halts
    cases inside
  obtain ⟨silent, account⟩ := tracing_observes .strict (some ⟨1, "full"⟩) .empty [print 1, print 2]
  refine ⟨ran, (silent _ _).mpr ⟨after, ran, rfl⟩, (account _ _ ran).1 stops, finished, ?_⟩
  exact ((tracing_observes .strict (some ⟨1, "full"⟩) .empty [print 1]).2 _ _ finished).2 outside

end Minilang
