import Minilang.Proofs.Relabelling
import Minilang.Proofs.Running

namespace Minilang

-- Positions go through a run unread: they come out in the errors and in the trace. So a
-- change of the positions in a tree changes them there, and nothing else.
section Moves

variable (h : Position → Position)

def Token.moved (t : Token) : Token := { t with position := h t.position }

def Fault.moved : Fault → Fault
  | runtime e => runtime { e with position := h e.position }
  | internal node => internal node
  | closedOutput error => closedOutput error

def Machine.moved (m : Machine) : Machine :=
  { m with trace := m.trace.map fun entry => (entry.1, h entry.2) }

def Progress.moved : Progress → Progress
  | finished m => finished (m.moved h)
  | failed fault m => failed (fault.moved h) (m.moved h)
  | unfinished => unfinished

end Moves

section Runs

variable {h : Position → Position} {mode : UndefinedMode} {options : RunOptions} {bound : Nat}

theorem Token.moved_keeps (h : Position → Position) : KeepsFace (moved h) := fun _ => rfl

theorem applyOperator_moved (origin : Token) (operator : String) (a b : Int) :
    applyOperator (origin.moved h) operator a b =
      (applyOperator origin operator a b).mapError (Fault.moved h) := by
  unfold applyOperator
  split
  · rfl
  split
  · rfl
  split
  · rfl
  split
  · split <;> rfl
  split
  · split <;> rfl
  · rfl

theorem Expr.eval_moved (e : Expr) (s : Store) :
    (e.relabel (Token.moved h)).eval mode s =
      ((e.eval mode s).1.mapError (Fault.moved h), (e.eval mode s).2) := by
  induction e generalizing s with
  | missing => rfl
  | number => rfl
  | ident origin name =>
    simp only [relabel, eval]
    split <;> rfl
  | unary origin operator operand ih =>
    simp only [relabel, eval, ih]
    split
    · rcases operand.eval mode s with ⟨fault | value, after⟩ <;> rfl
    · rfl
  | binary origin operator left right first second =>
    simp only [relabel, eval, first]
    rcases left.eval mode s with ⟨fault | a, after⟩
    · rfl
    · have kept : (Except.ok a : Except Fault Int).mapError (Fault.moved h) = .ok a := rfl
      simp only [kept, second]
      rcases right.eval mode after with ⟨fault | b, last⟩
      · rfl
      · exact congrArg (·, last) (applyOperator_moved origin operator a b)
  | assign origin target value ih =>
    cases target with
    | none => rfl
    | some target =>
      simp only [relabel, Option.map, eval, ih]
      rcases value.eval mode s with ⟨fault | v, after⟩ <;> rfl

theorem Stmt.node?_moved (s : Stmt) :
    (s.relabel (Token.moved h)).node? = s.node?.map fun entry => (entry.1, h entry.2) := by
  cases s with
  | expr e => cases e <;> rfl
  | branch | loop | print => rfl

@[simp]
theorem Machine.start_moved (store : Store) (sink : Option Sink) :
    (start store sink).moved h = start store sink := by
  simp [start, moved]

theorem Machine.enter_moved (s : Stmt) (m : Machine) :
    (m.moved h).enter options (s.relabel (Token.moved h)) = (m.enter options s).moved h := by
  unfold enter record
  rw [Stmt.node?_moved]
  cases s.node? with
  | none => rfl
  | some entry =>
    dsimp only [Option.map]
    split
    · simp [moved]
    · rfl

theorem Machine.write_moved (value : Int) (m : Machine) :
    (m.moved h).write value = (m.write value).moved h := by
  unfold write print
  rcases m with ⟨store, printed, trace, none | ⟨_ | n, error⟩⟩ <;> rfl

theorem Progress.andThen_moved {f g : Machine → Progress} (p : Progress)
    (later : ∀ m, g (m.moved h) = (f m).moved h) :
    (p.moved h).andThen g = (p.andThen f).moved h := by
  cases p with
  | finished m => exact later m
  | failed | unfinished => rfl

theorem Machine.evaluate_moved {f g : Int → Machine → Progress} (e : Expr) (m : Machine)
    (later : ∀ value m, g value (m.moved h) = (f value m).moved h) :
    (m.moved h).evaluate mode (e.relabel (Token.moved h)) g = (m.evaluate mode e f).moved h := by
  have store : (m.moved h).store = m.store := rfl
  rw [evaluate, evaluate, store, Expr.eval_moved]
  rcases e.eval mode m.store with ⟨fault | value, after⟩
  · rfl
  · exact later value { m with store := after }

theorem rounds_moved {f g : Machine → Progress} (e : Expr)
    (inside : ∀ m, g (m.moved h) = (f m).moved h) (n : Nat) (m : Machine) :
    rounds mode (e.relabel (Token.moved h)) g n (m.moved h) = (rounds mode e f n m).moved h := by
  induction n generalizing m with
  | zero => rfl
  | succ n ih =>
    rw [rounds_succ, rounds_succ]
    refine Machine.evaluate_moved e m fun value m => ?_
    split
    · rw [inside, Progress.andThen_moved (f m) ih]
    · rfl

mutual
theorem Stmt.perform_moved : ∀ (s : Stmt) (m : Machine),
    (s.relabel (Token.moved h)).perform options bound (m.moved h) =
      (s.perform options bound m).moved h
  | .expr e, m => by
    simp only [Stmt.relabel, Stmt.perform]
    exact Machine.evaluate_moved e m fun _ _ => rfl
  | .branch _ guard body, m => by
    simp only [Stmt.relabel, Stmt.perform]
    refine Machine.evaluate_moved guard m fun value m => ?_
    split
    · exact execBlock_moved body m
    · rfl
  | .loop _ guard body, m => by
    simp only [Stmt.relabel, Stmt.perform]
    exact rounds_moved guard (execBlock_moved body) bound m
  | .print _ e, m => by
    simp only [Stmt.relabel, Stmt.perform]
    exact Machine.evaluate_moved e m Machine.write_moved

theorem execBlock_moved : ∀ (body : List Stmt) (m : Machine),
    execBlock options bound (Stmt.relabelAll (Token.moved h) body) (m.moved h) =
      (execBlock options bound body m).moved h
  | [], m => by
    simp only [Stmt.relabelAll, execBlock_nil]
    rfl
  | s :: body, m => by
    have first : (s.relabel (Token.moved h)).exec options bound (m.moved h) =
        (s.exec options bound m).moved h := by
      rw [Stmt.exec_eq, Stmt.exec_eq, Machine.enter_moved, Stmt.perform_moved s]
    rw [Stmt.relabelAll, execBlock_cons, execBlock_cons, first]
    exact Progress.andThen_moved _ (execBlock_moved body)
end

theorem Progress.moved_ended {p : Progress} {outcome : Option Fault} {after : Machine}
    (ran : p.moved h = .ended outcome after) :
    ∃ other last, p = .ended other last ∧ outcome = other.map (Fault.moved h) ∧ after = last.moved h := by
  cases p with
  | finished last =>
    obtain ⟨rfl, rfl⟩ := finished_ended ran
    exact ⟨none, last, rfl, rfl, rfl⟩
  | failed fault last =>
    obtain ⟨rfl, rfl⟩ := failed_ended ran
    exact ⟨some fault, last, rfl, rfl, rfl⟩
  | unfinished => cases outcome <;> cases ran

theorem ends_moved {body : List Stmt} {m : Machine} {outcome : Option Fault} {after : Machine} :
    Ends options (Stmt.relabelAll (Token.moved h) body) (m.moved h) outcome after ↔
      ∃ other last, Ends options body m other last ∧ outcome = other.map (Fault.moved h) ∧
        after = last.moved h := by
  constructor
  · rintro ⟨bound, ran⟩
    rw [execBlock_moved] at ran
    obtain ⟨other, last, ended, same, kept⟩ := Progress.moved_ended ran
    exact ⟨other, last, ⟨bound, ended⟩, same, kept⟩
  · rintro ⟨other, last, ⟨bound, ended⟩, rfl, rfl⟩
    refine ⟨bound, ?_⟩
    rw [execBlock_moved, ended]
    cases other <;> rfl

end Runs

end Minilang
