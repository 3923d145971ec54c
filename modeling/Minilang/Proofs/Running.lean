import Mathlib.Logic.Relation
import Minilang.Run.Execution

namespace Minilang

section Composition

variable {options one two : RunOptions} {bound n k : Nat} {m after : Machine}
  {body : List Stmt} {es : List Expr} {e : Expr}

namespace Progress

def ended (outcome : Option Fault) (m : Machine) : Progress :=
  match outcome with
  | none => finished m
  | some fault => failed fault m

theorem finished_ended {outcome : Option Fault} (ran : finished m = ended outcome after) :
    outcome = none ∧ m = after := by
  cases outcome <;> cases ran
  exact ⟨rfl, rfl⟩

theorem failed_ended {outcome : Option Fault} {fault : Fault}
    (ran : failed fault m = ended outcome after) : outcome = some fault ∧ m = after := by
  cases outcome <;> cases ran
  exact ⟨rfl, rfl⟩

theorem ended_inj {outcome other : Option Fault} (same : ended outcome m = ended other after) :
    outcome = other ∧ m = after := by
  cases outcome with
  | none =>
    obtain ⟨rfl, rfl⟩ := finished_ended same
    exact ⟨rfl, rfl⟩
  | some fault =>
    obtain ⟨rfl, rfl⟩ := failed_ended same
    exact ⟨rfl, rfl⟩

end Progress

-- A run puts together few things that can be done to a machine: recording a statement,
-- evaluating an expression and writing a value. The equations below say how.
namespace Machine

def write (value : Int) (m : Machine) : Progress :=
  match m.print value with
  | .ok after => .finished after
  | .error error => .failed (.closedOutput error) m

def enter (options : RunOptions) (s : Stmt) (m : Machine) : Machine :=
  match s.node? with
  | some node => m.record options.tracing node
  | none => m

theorem enter_eq (options : RunOptions) (s : Stmt) (m : Machine) :
    ∃ trace, m.enter options s = { m with trace := trace } := by
  unfold enter record
  split
  · split <;> exact ⟨_, rfl⟩
  · exact ⟨_, rfl⟩

theorem print_eq {value : Int} (written : m.print value = .ok after) :
    ∃ sink, after = { m with printed := m.printed.push value, sink := sink } := by
  unfold print at written
  split at written <;> cases written <;> exact ⟨_, rfl⟩

end Machine

def Stmt.perform (options : RunOptions) (bound : Nat) : Stmt → Machine → Progress
  | .expr e => fun m => m.evaluate options.undefined e fun _ => .finished
  | .branch _ guard body => fun m => m.evaluate options.undefined guard fun value m =>
      if Integer.truthy value then execBlock options bound body m else .finished m
  | .loop _ guard body => rounds options.undefined guard (execBlock options bound body) bound
  | .print _ e => fun m => m.evaluate options.undefined e Machine.write

theorem Stmt.exec_eq (s : Stmt) (m : Machine) :
    s.exec options bound m = s.perform options bound (m.enter options s) := by
  cases s with
  | expr e => cases e <;> simp [Stmt.exec, perform, Machine.enter, node?, Expr.node?,
      Machine.evaluate, Expr.eval]
  | branch origin guard body => simp [Stmt.exec, perform, Machine.enter, node?]
  | loop origin guard body => simp [Stmt.exec, perform, Machine.enter, node?]
  | print origin e => rw [Stmt.exec]; rfl

@[simp]
theorem execBlock_nil (m : Machine) : execBlock options bound [] m = .finished m := by
  rw [execBlock]

@[simp]
theorem execBlock_cons (s : Stmt) (m : Machine) : execBlock options bound (s :: body) m =
    (s.exec options bound m).andThen (execBlock options bound body) := by
  rw [execBlock]

theorem rounds_succ (mode : UndefinedMode) (guard : Expr) (inside : Machine → Progress) :
    rounds mode guard inside (n + 1) m = m.evaluate mode guard fun value m =>
      if Integer.truthy value then (inside m).andThen (rounds mode guard inside n)
      else .finished m := by
  rw [rounds, Machine.evaluate]
  cases guard.eval mode m.store with
  | mk result store =>
    cases result with
    | error fault => rfl
    | ok value =>
      dsimp only
      split
      · cases inside { m with store := store } <;> rfl
      · rfl

mutual
def Stmt.expressions : Stmt → List Expr
  | .expr e => [e]
  | .branch _ guard body => guard :: Stmt.allExpressions body
  | .loop _ guard body => guard :: Stmt.allExpressions body
  | .print _ e => [e]

def Stmt.allExpressions : List Stmt → List Expr
  | [] => []
  | s :: body => s.expressions ++ Stmt.allExpressions body
end

-- A relation between two ways of running that every step respects. The first one may be
-- given the smaller bound, so it may have no answer where the second one has one.
structure Congruent (one two : RunOptions) (es : List Expr)
    (T : (Machine → Progress) → (Machine → Progress) → Prop) : Prop where
  finish : T .finished .finished
  follow : ∀ {f g later other}, T f g → T later other →
    T (fun m => (f m).andThen later) fun m => (g m).andThen other
  evaluate : ∀ {e f g}, e ∈ es → (∀ value, T (f value) (g value)) →
    T (fun m => m.evaluate one.undefined e f) fun m => m.evaluate two.undefined e g
  write : ∀ value, T (Machine.write value) (Machine.write value)
  enter : ∀ s, T (fun m => .finished (m.enter one s)) fun m => .finished (m.enter two s)
  unfinished : T (fun _ => .unfinished) fun _ => .unfinished
  less : ∀ {f g}, T f g → T (fun _ => .unfinished) g

namespace Congruent

variable {T : (Machine → Progress) → (Machine → Progress) → Prop} {f g : Machine → Progress}

theorem guarded (steps : Congruent one two es T) (inside : T f g) (value : Int) :
    T (fun m => if Integer.truthy value then f m else .finished m)
      fun m => if Integer.truthy value then g m else .finished m := by
  cases Integer.truthy value with
  | true => exact inside
  | false => exact steps.finish

theorem loop (steps : Congruent one two es T) (member : e ∈ es) (inside : T f g) (more : n ≤ k) :
    T (rounds one.undefined e f n) (rounds two.undefined e g k) := by
  have round {n k : Nat} (later : T (rounds one.undefined e f n) (rounds two.undefined e g k)) :
      T (rounds one.undefined e f (n + 1)) (rounds two.undefined e g (k + 1)) := by
    have once := steps.evaluate member fun value => steps.guarded (steps.follow inside later) value
    simpa only [← rounds_succ] using once
  induction k generalizing n with
  | zero =>
    cases Nat.le_zero.mp more
    exact steps.unfinished
  | succ k ih =>
    cases n with
    | zero => exact steps.less (round (ih (Nat.le_refl k)))
    | succ n => exact round (ih (Nat.le_of_succ_le_succ more))

theorem behind (steps : Congruent one two es T) (s : Stmt)
    (done : T (s.perform one n) (s.perform two k)) : T (s.exec one n) (s.exec two k) := by
  rw [funext s.exec_eq, funext s.exec_eq]
  exact steps.follow (steps.enter s) done

mutual
theorem statement (steps : Congruent one two es T) (more : n ≤ k) :
    ∀ s : Stmt, (∀ e ∈ s.expressions, e ∈ es) → T (s.exec one n) (s.exec two k)
  | .expr e, listed => by
    have member := listed e (by simp [Stmt.expressions])
    exact steps.behind _ (steps.evaluate member fun _ => steps.finish)
  | .branch _ guard body, listed => by
    have member := listed guard (by simp [Stmt.expressions])
    have inside := block steps more body fun e deep => listed e (by simp [Stmt.expressions, deep])
    exact steps.behind _ (steps.evaluate member fun value => steps.guarded inside value)
  | .loop _ guard body, listed => by
    have member := listed guard (by simp [Stmt.expressions])
    have inside := block steps more body fun e deep => listed e (by simp [Stmt.expressions, deep])
    exact steps.behind _ (steps.loop member inside more)
  | .print _ e, listed => by
    have member := listed e (by simp [Stmt.expressions])
    exact steps.behind _ (steps.evaluate member steps.write)

theorem block (steps : Congruent one two es T) (more : n ≤ k) :
    ∀ body, (∀ e ∈ Stmt.allExpressions body, e ∈ es) →
      T (execBlock one n body) (execBlock two k body)
  | [], _ => by
    rw [funext execBlock_nil, funext execBlock_nil]
    exact steps.finish
  | s :: body, listed => by
    have first := statement steps more s fun e member =>
      listed e (by simp [Stmt.allExpressions, member])
    have later := block steps more body fun e member =>
      listed e (by simp [Stmt.allExpressions, member])
    simpa only [← execBlock_cons] using steps.follow first later
end

end Congruent

section Inversion

variable {mode : UndefinedMode} {next : Int → Machine → Progress} {store : Store}
  {outcome : Option Fault}

theorem evaluate_ok {value : Int} (found : e.eval mode m.store = (.ok value, store)) :
    m.evaluate mode e next = next value { m with store := store } := by
  rw [Machine.evaluate, found]

theorem evaluate_error {fault : Fault} (found : e.eval mode m.store = (.error fault, store)) :
    m.evaluate mode e next = .failed fault { m with store := store } := by
  rw [Machine.evaluate, found]

theorem andThen_ended {p : Progress} {later : Machine → Progress}
    (ran : p.andThen later = .ended outcome after) :
    (∃ mid, p = .ended none mid ∧ later mid = .ended outcome after) ∨
      ∃ fault, outcome = some fault ∧ p = .ended (some fault) after := by
  cases p with
  | finished mid => exact .inl ⟨mid, rfl, ran⟩
  | failed fault mid =>
    obtain ⟨rfl, rfl⟩ := Progress.failed_ended ran
    exact .inr ⟨fault, rfl, rfl⟩
  | unfinished => cases outcome <;> cases ran

end Inversion

-- An answer stays when the bound grows; only where there was none there may come one.
def Progress.KeptBy (p q : Progress) : Prop := p = .unfinished ∨ p = q

theorem Progress.KeptBy.ended {p q : Progress} {outcome : Option Fault} (kept : p.KeptBy q)
    (ran : p = .ended outcome after) : q = .ended outcome after := by
  rcases kept with none | same
  · cases outcome <;> cases none.symm.trans ran
  · exact same.symm.trans ran

theorem Progress.KeptBy.andThen {p q : Progress} {f g : Machine → Progress} (first : p.KeptBy q)
    (later : ∀ m, (f m).KeptBy (g m)) : (p.andThen f).KeptBy (q.andThen g) := by
  rcases first with rfl | rfl
  · exact .inl rfl
  · cases p with
    | finished after => exact later after
    | failed fault after => exact .inr rfl
    | unfinished => exact .inl rfl

theorem answers_kept (options : RunOptions) (es : List Expr) :
    Congruent options options es fun f g => ∀ m, (f m).KeptBy (g m) where
  finish _ := .inr rfl
  follow first later m := (first m).andThen later
  evaluate {e _ _} _ next m := by
    dsimp only
    rcases found : e.eval options.undefined m.store with ⟨fault | value, store⟩
    · rw [evaluate_error found, evaluate_error found]
      exact .inr rfl
    · rw [evaluate_ok found, evaluate_ok found]
      exact next value _
  write _ _ := .inr rfl
  enter _ _ := .inr rfl
  unfinished _ := .inl rfl
  less _ _ := .inl rfl

-- How a run ends, whatever bound it was given.
def Ends (options : RunOptions) (body : List Stmt) (m : Machine) (outcome : Option Fault)
    (after : Machine) : Prop :=
  ∃ bound, execBlock options bound body m = .ended outcome after

theorem execBlock_kept (options : RunOptions) (more : n ≤ k) (body : List Stmt) (m : Machine) :
    (execBlock options n body m).KeptBy (execBlock options k body m) :=
  (answers_kept options _).block more body (fun _ listed => listed) m

theorem Stmt.exec_kept (options : RunOptions) (more : n ≤ k) (s : Stmt) (m : Machine) :
    (s.exec options n m).KeptBy (s.exec options k m) :=
  (answers_kept options _).statement more s (fun _ listed => listed) m

theorem Ends.unique (first : Ends options body m outcome after)
    (second : Ends options body m other last) : outcome = other ∧ after = last := by
  obtain ⟨n, one⟩ := first
  obtain ⟨k, two⟩ := second
  have left := (execBlock_kept options (Nat.le_max_left n k) body m).ended one
  have right := (execBlock_kept options (Nat.le_max_right n k) body m).ended two
  exact Progress.ended_inj (left.symm.trans right)

end Composition

inductive Step (options : RunOptions) (es : List Expr) : Machine → Machine → Prop where
  | enter (s : Stmt) : Step options es m (m.enter options s)
  | evaluate (member : e ∈ es) (found : e.eval options.undefined m.store = (result, store)) :
      Step options es m { m with store := store }
  | print (written : m.print value = .ok after) : Step options es m after

def Steps (options : RunOptions) (es : List Expr) : Machine → Machine → Prop :=
  Relation.ReflTransGen (Step options es)

inductive Stops (options : RunOptions) (es : List Expr) : Fault → Machine → Prop where
  | evaluation (member : e ∈ es)
      (failed : e.eval options.undefined store = (.error fault, m.store)) :
      Stops options es fault m
  | output (full : m.sink = some ⟨0, error⟩) : Stops options es (.closedOutput error) m

def Progress.From (options : RunOptions) (es : List Expr) (m : Machine) : Progress → Prop
  | finished after => Steps options es m after
  | failed fault after => Steps options es m after ∧ Stops options es fault after
  | unfinished => True

section Story

variable {options : RunOptions} {m after : Machine} {body : List Stmt} {es : List Expr} {e : Expr}

namespace Progress.From

theorem before {p : Progress} (path : Steps options es m after) (later : p.From options es after) :
    p.From options es m := by
  cases p with
  | finished last => exact path.trans later
  | failed fault last => exact ⟨path.trans later.1, later.2⟩
  | unfinished => trivial

theorem andThen {p : Progress} {f : Machine → Progress} (first : p.From options es m)
    (later : ∀ m, (f m).From options es m) : (p.andThen f).From options es m := by
  cases p with
  | finished after => exact (later after).before first
  | failed fault after => exact first
  | unfinished => trivial

end Progress.From

theorem evaluate_from {next : Int → Machine → Progress} (member : e ∈ es)
    (later : ∀ value m, (next value m).From options es m) (m : Machine) :
    (m.evaluate options.undefined e next).From options es m := by
  rcases found : e.eval options.undefined m.store with ⟨fault | value, store⟩
  · rw [evaluate_error found]
    exact ⟨.single (.evaluate member found), .evaluation member found⟩
  · rw [evaluate_ok found]
    exact (later value _).before (.single (.evaluate member found))

theorem enter_from (s : Stmt) (m : Machine) :
    (Progress.finished (m.enter options s)).From options es m :=
  Relation.ReflTransGen.single (.enter s)

theorem write_from (value : Int) (m : Machine) : (m.write value).From options es m := by
  cases written : m.print value with
  | ok after =>
    rw [Machine.write, written]
    exact Relation.ReflTransGen.single (.print written)
  | error error =>
    have full : m.sink = some ⟨0, error⟩ := by
      unfold Machine.print at written
      split at written
      · cases written
      · cases written
        assumption
      · cases written
    rw [Machine.write, written]
    exact ⟨.refl, .output full⟩

theorem runs_stepwise (options : RunOptions) (es : List Expr) :
    Congruent options options es fun f _ => ∀ m, (f m).From options es m where
  finish _ := Relation.ReflTransGen.refl
  follow first later m := (first m).andThen later
  evaluate member next := evaluate_from member next
  write := write_from
  enter := enter_from
  unfinished _ := trivial
  less _ _ := trivial

theorem execBlock_from (options : RunOptions) (bound : Nat) (body : List Stmt) (m : Machine) :
    (execBlock options bound body m).From options (Stmt.allExpressions body) m :=
  (runs_stepwise options _).block (Nat.le_refl bound) body (fun _ listed => listed) m

theorem Ends.steps (ran : Ends options body m outcome after) :
    Steps options (Stmt.allExpressions body) m after := by
  obtain ⟨bound, ended⟩ := ran
  have story := execBlock_from options bound body m
  rw [ended] at story
  cases outcome with
  | none => exact story
  | some fault => exact story.1

theorem Ends.stops (ran : Ends options body m (some fault) after) :
    Stops options (Stmt.allExpressions body) fault after := by
  obtain ⟨bound, ended⟩ := ran
  have story := execBlock_from options bound body m
  rw [ended] at story
  exact story.2

theorem Step.unlimited (step : Step options es m after) (free : m.sink = none) :
    after.sink = none := by
  cases step with
  | enter s =>
    obtain ⟨trace, same⟩ := m.enter_eq options s
    rw [same]
    exact free
  | evaluate => exact free
  | print written =>
    rw [Machine.print, free] at written
    cases written
    rfl

theorem Step.printed (step : Step options es m after) :
    m.printed.toList <+: after.printed.toList := by
  cases step with
  | enter s =>
    obtain ⟨trace, same⟩ := m.enter_eq options s
    simp [same]
  | evaluate => exact List.prefix_rfl
  | print written =>
    obtain ⟨sink, rfl⟩ := Machine.print_eq written
    simp

theorem Steps.unlimited (path : Steps options es m after) (free : m.sink = none) :
    after.sink = none := by
  induction path with
  | refl => exact free
  | tail _ step ih => exact step.unlimited ih

theorem Steps.printed (path : Steps options es m after) :
    m.printed.toList <+: after.printed.toList := by
  induction path with
  | refl => exact List.prefix_rfl
  | tail _ step ih => exact ih.trans step.printed

end Story

end Minilang
