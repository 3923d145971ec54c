import Minilang.Proofs.RunFailure
import Minilang.Proofs.SmallStep

namespace Minilang

def Expr.targets : Expr → List String
  | missing | number _ _ | ident _ _ => []
  | unary _ _ operand => operand.targets
  | binary _ _ left right => left.targets ++ right.targets
  | assign _ target value => (target.map (·.name)).toList ++ value.targets

-- Only assignments bind, so an expression without a target leaves everything as it was,
-- whether it has a value or fails.
theorem Evaluates.untargeted (derived : Evaluates mode e c result d) (none : e.targets = []) :
    d = c := by
  induction derived with
  | missing | number | valueless | bound | unboundZero | unbound | unknownSign | targetless => rfl
  | negation _ ih | operandFails _ ih => exact ih none
  | operation _ _ _ first second | divisionByZero _ _ first second
  | moduloByZero _ _ first second | unknownOperator _ _ _ first second
  | rightFails _ _ first second =>
    obtain ⟨left, right⟩ := List.append_eq_nil_iff.mp none
    exact (second right).trans (first left)
  | leftFails _ ih => exact ih (List.append_eq_nil_iff.mp none).1
  | assignment => cases none
  | valueFails => cases none

theorem Expr.Plain.untargeted {e : Expr} (plain : e.Plain) : e.targets = [] := by
  induction e with
  | missing | assign => exact absurd plain id
  | number | ident => rfl
  | unary origin operator operand ih => exact ih plain.2
  | binary origin operator left right first second =>
    exact List.append_eq_nil_iff.mpr ⟨first plain.2.1, second plain.2.2⟩

-- What was read from a text has an assignment only on the outside, where it binds last: when
-- the evaluation fails, it has not bound yet.
theorem Evaluates.failure_keeps (derived : Evaluates mode e c (.error fault) d)
    (readable : e.Readable) : d = c := by
  cases e with
  | assign origin target value =>
    obtain ⟨_, plain⟩ := readable
    cases derived with
    | valueFails failed => exact failed.untargeted plain.untargeted
    | targetless => rfl
  | missing | number | ident | unary | binary =>
    exact derived.untargeted (Expr.Plain.untargeted readable)

theorem eval_failure_keeps {e : Expr} (failed : e.eval mode s = (.error fault, last))
    (readable : e.Readable) : last = s := by
  have derived : Evaluates mode e ⟨s, ""⟩ (.error fault) ⟨last, ""⟩ := Evaluates.sound failed
  exact congrArg Configuration.store (derived.failure_keeps readable)

mutual
def Stmt.withNested : Stmt → List Stmt
  | .expr e => [.expr e]
  | .branch origin guard body => .branch origin guard body :: Stmt.allNested body
  | .loop origin guard body => .loop origin guard body :: Stmt.allNested body
  | .print origin e => [.print origin e]

def Stmt.allNested : List Stmt → List Stmt
  | [] => []
  | s :: body => s.withNested ++ Stmt.allNested body
end

mutual
theorem Stmt.operand_withNested :
    ∀ s : Stmt, ∀ inner ∈ s.withNested, inner.operand ∈ s.expressions
  | .expr _ | .print _ _ => List.forall_mem_singleton.mpr (List.mem_singleton_self _)
  | .branch _ _ body | .loop _ _ body => by
    refine List.forall_mem_cons.mpr ⟨List.mem_cons_self, ?_⟩
    intro inner member
    exact List.mem_cons_of_mem _ (Stmt.operand_allNested body inner member)

theorem Stmt.operand_allNested :
    ∀ body, ∀ inner ∈ Stmt.allNested body, inner.operand ∈ Stmt.allExpressions body
  | [] => List.forall_mem_nil _
  | s :: body => by
    refine List.forall_mem_append.mpr ⟨?_, ?_⟩
    · intro inner member
      exact List.mem_append_left _ (Stmt.operand_withNested s inner member)
    · intro inner member
      exact List.mem_append_right _ (Stmt.operand_allNested body inner member)
end

def Stmt.Simple : Stmt → Prop
  | .expr _ | .print _ _ => True
  | .branch _ _ _ | .loop _ _ _ => False

def Stmt.condition? : Stmt → Option Expr
  | .branch _ guard _ | .loop _ guard _ => some guard
  | .expr _ | .print _ _ => none

section Failing

variable {options : RunOptions} {s : Stmt} {m after : Machine} {e guard : Expr}
  {mode : UndefinedMode} {error : RuntimeError} {next : Int → Machine → Progress}

def Faultless (next : Int → Machine → Progress) : Prop :=
  ∀ value m error after, next value m ≠ .failed (.runtime error) after

theorem finished_faultless : Faultless fun _ => .finished := by
  intro value m error after failed
  cases failed

theorem write_faultless : Faultless Machine.write := by
  intro value m error after failed
  unfold Machine.write at failed
  split at failed <;> cases failed

theorem evaluate_atomic (faultless : Faultless next) (readable : e.Readable)
    (ran : m.evaluate mode e next = .failed (.runtime error) after) :
    after = m ∧ e.eval mode m.store = (.error (.runtime error), m.store) := by
  rcases found : e.eval mode m.store with ⟨fault | value, store⟩
  · rw [evaluate_error found] at ran
    cases ran
    cases eval_failure_keeps found readable
    exact ⟨rfl, rfl⟩
  · rw [evaluate_ok found] at ran
    exact absurd ran (faultless _ _ _ _)

theorem Stmt.condition_operand (listed : s.condition? = some guard) : s.operand = guard := by
  cases s <;> cases listed <;> rfl

theorem Stmt.Simple.evaluates (simple : s.Simple) : ∃ next, Faultless next ∧
    ∀ options bound m,
      s.exec options bound m = (m.enter options s).evaluate options.undefined s.operand next := by
  cases s with
  | expr e => exact ⟨_, finished_faultless, fun _ _ m => Stmt.exec_eq _ m⟩
  | print origin e => exact ⟨_, write_faultless, fun _ _ m => Stmt.exec_eq _ m⟩
  | branch | loop => exact absurd simple id

theorem ends_single : Ends options [s] m outcome after ↔
    ∃ bound, s.exec options bound m = .ended outcome after := by
  have same (bound : Nat) : execBlock options bound [s] m = s.exec options bound m := by
    rw [execBlock_cons]
    cases s.exec options bound m with
    | finished mid =>
      dsimp only [Progress.andThen]
      rw [execBlock_nil]
    | failed | unfinished => rfl
  simp only [Ends, same]

theorem Stmt.Simple.atomic (simple : s.Simple) (readable : s.operand.Readable)
    (ran : Ends options [s] m (some (.runtime error)) after) :
    after = m.enter options s ∧
      Ends options [s] after (some (.runtime error)) (after.enter options s) := by
  obtain ⟨next, faultless, runs⟩ := simple.evaluates
  obtain ⟨bound, failed⟩ := ends_single.mp ran
  rw [runs] at failed
  obtain ⟨rfl, found⟩ := evaluate_atomic faultless readable failed
  refine ⟨rfl, ends_single.mpr ⟨bound, ?_⟩⟩
  rw [← Machine.enter_store options s (m.enter options s)] at found
  rw [runs, evaluate_error found]
  rfl

theorem Machine.enter_output (options : RunOptions) (s : Stmt) (m : Machine) :
    (m.enter options s).output = m.output := by
  obtain ⟨trace, same⟩ := m.enter_eq options s
  rw [same]
  rfl

end Failing

theorem simple_failures_atomic (source : List UInt8) (body : List Stmt)
    (read : Parse.source source = .ok body) (options : RunOptions) :
    (∀ s ∈ Stmt.allNested body, s.Simple →
      ∀ m error after, Ends options [s] m (some (.runtime error)) after →
        after.store = m.store ∧ after.output = m.output ∧
        ∃ again, Ends options [s] after (some (.runtime error)) again ∧
          again.store = m.store ∧ again.output = m.output) ∧
    ∀ s ∈ Stmt.allNested body, ∀ guard, s.condition? = some guard →
      ∀ (m : Machine) error after,
        m.evaluate options.undefined guard (fun _ => .finished) = .failed (.runtime error) after →
        after.store = m.store ∧ after.output = m.output ∧
        after.evaluate options.undefined guard (fun _ => .finished) =
          .failed (.runtime error) after := by
  obtain ⟨tokens, scanned, parsed⟩ := source_ok.mp read
  have readable : ∀ s ∈ Stmt.allNested body, s.operand.Readable := by
    intro s member
    exact Stmt.AllReadable.expressions body (source_readable scanned parsed) _
      (Stmt.operand_allNested body s member)
  refine ⟨?_, ?_⟩
  · intro s member simple m error after ran
    obtain ⟨rfl, again⟩ := simple.atomic (readable s member) ran
    refine ⟨Machine.enter_store .., Machine.enter_output .., _, again, ?_, ?_⟩
    · rw [Machine.enter_store, Machine.enter_store]
    · rw [Machine.enter_output, Machine.enter_output]
  · intro s member guard listed m error after failed
    have outside := readable s member
    rw [Stmt.condition_operand listed] at outside
    obtain ⟨rfl, _⟩ := evaluate_atomic finished_faultless outside failed
    exact ⟨rfl, rfl, failed⟩

theorem simple_failures_atomic_nested :
    let error (column : Int) : RuntimeError :=
      ⟨⟨0, column⟩, .divisionByZero, "division by zero", ""⟩
    let division (column : Int) : Expr := .binary ⟨⟨0, column⟩, .operator, "/", none⟩ "/"
      (.number ⟨⟨0, column - 1⟩, .number, "1", some 1⟩ (some 1))
      (.number ⟨⟨0, column + 1⟩, .number, "0", some 0⟩ (some 0))
    let inner : Stmt := .expr (.assign ⟨⟨0, 9⟩, .operator, "=", none⟩
      (some ⟨⟨⟨0, 8⟩, .identifier, "x", none⟩, "x"⟩) (division 11))
    let bound : Store := .ofBindings [("x", 5)]
    Parse.source [105, 102, 40, 49, 47, 48, 41, 123, 120, 61, 49, 47, 48, 59, 125] =
      .ok [.branch ⟨.origin, .keyword, "if", none⟩ (division 4) [inner]] ∧
    (∃ after, Ends {} [inner] (.start bound none) (some (.runtime (error 11))) after ∧
      after.store = bound ∧ after.output = "" ∧
      ∃ again, Ends {} [inner] after (some (.runtime (error 11))) again ∧
        again.store = bound ∧ again.output = "") ∧
    ∃ after, (Machine.start bound none).evaluate .strict (division 4) (fun _ => .finished) =
      .failed (.runtime (error 4)) after ∧ after.store = bound ∧ after.output = "" := by
  intro error division inner bound
  have atomic := simple_failures_atomic _
    [.branch ⟨.origin, .keyword, "if", none⟩ (division 4) [inner]]
    (show Parse.source [105, 102, 40, 49, 47, 48, 41, 123, 120, 61, 49, 47, 48, 59, 125] = _ from rfl)
    {}
  have failed : Ends {} [inner] (.start bound none) (some (.runtime (error 11)))
      (.start bound none) := ⟨0, rfl⟩
  refine ⟨rfl, ⟨_, failed, ?_⟩, .start bound none, rfl, ?_⟩
  · exact atomic.1 inner (.tail _ (.head _)) trivial _ _ _ failed
  · obtain ⟨store, output, _⟩ :=
      atomic.2 _ (.head _) (division 4) rfl (.start bound none) (error 4) _ rfl
    exact ⟨store, output⟩

-- An assignment further inside, which no text gives, binds although the whole fails.
example (t : Token) :
    (Expr.binary t "/" (.assign t (some ⟨t, "x"⟩) (.number t (some 1))) (.number t (some 0))).eval
      .strict .empty = (.error (.zeroDivisor t "division by zero"), .ofBindings [("x", 1)]) := rfl

end Minilang
