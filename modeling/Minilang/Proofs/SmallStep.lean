import Minilang.Proofs.Running

namespace Minilang

-- A run step by step. What is still to be done is a list of tasks: statements, the loops
-- that were entered and come round again, and the values that wait to be written.
inductive Task where
  | statement (s : Stmt)
  | round (guard : Expr) (body : List Stmt)
  | write (value : Int)

structure Pending where
  tasks : List Task
  machine : Machine

def Pending.ofProgram (body : List Stmt) (m : Machine) : Pending := ⟨body.map .statement, m⟩

-- Every statement evaluates one expression first. The value decides what comes next.
def Stmt.operand : Stmt → Expr
  | .expr e => e
  | .branch _ guard _ => guard
  | .loop _ guard _ => guard
  | .print _ e => e

def roundTasks (guard : Expr) (body : List Stmt) (value : Int) : List Task :=
  if Integer.truthy value then body.map .statement ++ [.round guard body] else []

def Stmt.nextTasks : Stmt → Int → List Task
  | .expr _, _ => []
  | .branch _ _ body, value => if Integer.truthy value then body.map .statement else []
  | .loop _ guard body, value => roundTasks guard body value
  | .print _ _, value => [.write value]

inductive Next (options : RunOptions) : Pending → Pending → Prop where
  | statement (found : s.operand.eval options.undefined m.store = (.ok value, store)) :
      Next options ⟨.statement s :: rest, m⟩
        ⟨s.nextTasks value ++ rest, { m.enter options s with store := store }⟩
  | round (found : e.eval options.undefined m.store = (.ok value, store)) :
      Next options ⟨.round e body :: rest, m⟩
        ⟨roundTasks e body value ++ rest, { m with store := store }⟩
  | write (written : m.print value = .ok after) :
      Next options ⟨.write value :: rest, m⟩ ⟨rest, after⟩

inductive Halts (options : RunOptions) : Pending → Option Fault → Machine → Prop where
  | done : Halts options ⟨[], m⟩ none m
  | statement (failed : s.operand.eval options.undefined m.store = (.error fault, store)) :
      Halts options ⟨.statement s :: rest, m⟩ (some fault) { m.enter options s with store := store }
  | round (failed : e.eval options.undefined m.store = (.error fault, store)) :
      Halts options ⟨.round e body :: rest, m⟩ (some fault) { m with store := store }
  | write (closed : m.print value = .error error) :
      Halts options ⟨.write value :: rest, m⟩ (some (.closedOutput error)) m

def ComesTo (options : RunOptions) : Pending → Pending → Prop := Relation.ReflTransGen (Next options)

section Story

variable {options : RunOptions} {bound n : Nat} {ts us : List Task} {m mid after : Machine}
  {e : Expr} {mode : UndefinedMode} {value : Int}

@[simp]
theorem Machine.enter_store (options : RunOptions) (s : Stmt) (m : Machine) :
    (m.enter options s).store = m.store := by
  obtain ⟨trace, same⟩ := m.enter_eq options s
  rw [same]

theorem write_open (written : m.print value = .ok after) : m.write value = .finished after := by
  rw [Machine.write, written]

theorem write_closed {error : String} (closed : m.print value = .error error) :
    m.write value = .failed (.closedOutput error) m := by
  rw [Machine.write, closed]

-- What an answer says about the steps of the tasks that it is the answer of, whatever is to
-- be done after them.
def Story (options : RunOptions) (ts : List Task) (m : Machine) : Progress → Prop
  | .finished after => ∀ rest, ComesTo options ⟨ts ++ rest, m⟩ ⟨rest, after⟩
  | .failed fault after => ∀ rest, ∃ c, ComesTo options ⟨ts ++ rest, m⟩ c ∧
      Halts options c (some fault) after
  | .unfinished => True

namespace Story

theorem nil (m : Machine) : Story options [] m (.finished m) := fun _ => .refl

theorem andThen {p : Progress} {f : Machine → Progress} (first : Story options ts m p)
    (later : ∀ m, Story options us m (f m)) : Story options (ts ++ us) m (p.andThen f) := by
  cases p with
  | finished mid =>
    have second := later mid
    change Story options (ts ++ us) m (f mid)
    generalize f mid = q at second ⊢
    cases q with
    | finished after =>
      intro rest
      rw [List.append_assoc]
      exact (first _).trans (second rest)
    | failed fault after =>
      intro rest
      obtain ⟨c, path, halts⟩ := second rest
      rw [List.append_assoc]
      exact ⟨c, (first _).trans path, halts⟩
    | unfinished => trivial
  | failed fault after =>
    intro rest
    rw [List.append_assoc]
    exact first _
  | unfinished => trivial

theorem step {p : Progress} (steps : ∀ rest, Next options ⟨ts ++ rest, m⟩ ⟨us ++ rest, mid⟩)
    (later : Story options us mid p) : Story options ts m p := by
  cases p with
  | finished after => exact fun rest => .head (steps rest) (later rest)
  | failed fault after =>
    intro rest
    obtain ⟨c, path, halts⟩ := later rest
    exact ⟨c, .head (steps rest) path, halts⟩
  | unfinished => trivial

theorem evaluate {next : Int → List Task} {f : Int → Machine → Progress}
    (steps : ∀ value store rest, e.eval mode mid.store = (.ok value, store) →
      Next options ⟨ts ++ rest, m⟩ ⟨next value ++ rest, { mid with store := store }⟩)
    (halts : ∀ fault store rest, e.eval mode mid.store = (.error fault, store) →
      Halts options ⟨ts ++ rest, m⟩ (some fault) { mid with store := store })
    (later : ∀ value m, Story options (next value) m (f value m)) :
    Story options ts m (mid.evaluate mode e f) := by
  rcases found : e.eval mode mid.store with ⟨fault | value, store⟩
  · rw [evaluate_error found]
    exact fun rest => ⟨_, .refl, halts fault store rest found⟩
  · rw [evaluate_ok found]
    exact step (fun rest => steps value store rest found) (later value _)

theorem write (value : Int) (m : Machine) : Story options [.write value] m (m.write value) := by
  cases written : m.print value with
  | ok after =>
    rw [write_open written]
    exact fun rest => .single (.write written)
  | error error =>
    rw [write_closed written]
    exact fun rest => ⟨_, .refl, .write written⟩

theorem guarded {p : Progress} (value : Int) (inside : Story options ts m p) :
    Story options (if Integer.truthy value then ts else []) m
      (if Integer.truthy value then p else .finished m) := by
  cases Integer.truthy value with
  | true => exact inside
  | false => exact nil m

theorem rounds {body : List Stmt} {run : Machine → Progress}
    (inside : ∀ m, Story options (body.map .statement) m (run m)) (n : Nat) (m : Machine) :
    Story options [.round e body] m (rounds options.undefined e run n m) := by
  induction n generalizing m with
  | zero => trivial
  | succ n ih =>
    rw [rounds_succ]
    refine evaluate (fun _ _ _ found => .round found) (fun _ _ _ failed => .round failed) ?_
    exact fun value m => guarded value ((inside m).andThen ih)

theorem perform {s : Stmt} {f : Int → Machine → Progress}
    (later : ∀ value m, Story options (s.nextTasks value) m (f value m)) (m : Machine) :
    Story options [.statement s] m ((m.enter options s).evaluate options.undefined s.operand f) := by
  refine evaluate ?_ ?_ later
  · intro value store rest found
    rw [Machine.enter_store] at found
    exact .statement found
  · intro fault store rest failed
    rw [Machine.enter_store] at failed
    exact .statement failed

-- The first round starts from the statement, the others from what it left to be done.
theorem loop {body : List Stmt} {origin : Token} {run : Machine → Progress}
    (inside : ∀ m, Story options (body.map .statement) m (run m)) (n : Nat) (m : Machine) :
    Story options [.statement (.loop origin e body)] m
      (Minilang.rounds options.undefined e run n (m.enter options (.loop origin e body))) := by
  cases n with
  | zero => trivial
  | succ n =>
    rw [rounds_succ]
    refine perform ?_ m
    exact fun value m => guarded value ((inside m).andThen (rounds inside n))

mutual
theorem statement : ∀ (s : Stmt) (m : Machine),
    Story options [.statement s] m (s.exec options bound m)
  | .expr e, m => by
    rw [Stmt.exec_eq, Stmt.perform]
    refine perform ?_ m
    exact fun _ m => nil m
  | .branch origin e body, m => by
    rw [Stmt.exec_eq, Stmt.perform]
    refine perform ?_ m
    exact fun value m => guarded value (block body m)
  | .loop origin e body, m => by
    rw [Stmt.exec_eq]
    exact loop (block body) bound m
  | .print origin e, m => by
    rw [Stmt.exec_eq, Stmt.perform]
    refine perform ?_ m
    exact write

theorem block : ∀ (body : List Stmt) (m : Machine),
    Story options (body.map .statement) m (execBlock options bound body m)
  | [], m => by
    rw [execBlock_nil]
    exact nil m
  | s :: body, m => by
    rw [execBlock_cons]
    exact (statement s m).andThen (block body)
end

end Story

end Story

section Answers

variable {options : RunOptions} {n k : Nat} {c d : Pending} {m after : Machine} {e : Expr}
  {body : List Stmt} {value : Int} {store : Store} {outcome : Option Fault}

def Task.perform (options : RunOptions) (bound : Nat) : Task → Machine → Progress
  | .statement s => s.exec options bound
  | .round e body => rounds options.undefined e (execBlock options bound body) bound
  | .write value => Machine.write value

def performAll (options : RunOptions) (bound : Nat) : List Task → Machine → Progress
  | [] => .finished
  | t :: ts => fun m => (t.perform options bound m).andThen (performAll options bound ts)

def Pending.run (options : RunOptions) (bound : Nat) (c : Pending) : Progress :=
  performAll options bound c.tasks c.machine

@[simp]
theorem Progress.andThen_assoc (p : Progress) (f g : Machine → Progress) :
    (p.andThen f).andThen g = p.andThen fun m => (f m).andThen g := by
  cases p <;> rfl

@[simp]
theorem Progress.andThen_finished (p : Progress) : p.andThen .finished = p := by
  cases p <;> rfl

@[simp]
theorem performAll_cons (t : Task) (ts : List Task) (m : Machine) :
    performAll options n (t :: ts) m = (t.perform options n m).andThen (performAll options n ts) :=
  rfl

@[simp]
theorem performAll_append (ts us : List Task) (m : Machine) :
    performAll options n (ts ++ us) m =
      (performAll options n ts m).andThen (performAll options n us) := by
  induction ts generalizing m with
  | nil => rfl
  | cons t ts ih =>
    have later : performAll options n (ts ++ us) =
        fun m => (performAll options n ts m).andThen (performAll options n us) := funext ih
    rw [List.cons_append, performAll_cons, later, performAll_cons, Progress.andThen_assoc]

theorem performAll_single (t : Task) (m : Machine) :
    performAll options n [t] m = t.perform options n m :=
  Progress.andThen_finished _

@[simp]
theorem performAll_statements (body : List Stmt) (m : Machine) :
    performAll options n (body.map .statement) m = execBlock options n body m := by
  induction body generalizing m with
  | nil => exact (execBlock_nil m).symm
  | cons s body ih =>
    rw [List.map_cons, performAll_cons, funext ih, execBlock_cons]
    rfl

theorem rounds_kept (options : RunOptions) (e : Expr) (body : List Stmt) {i j : Nat} (deeper : n ≤ k)
    (longer : i ≤ j) (m : Machine) :
    (rounds options.undefined e (execBlock options n body) i m).KeptBy
      (rounds options.undefined e (execBlock options k body) j m) :=
  (answers_kept options [e]).loop (List.mem_singleton_self e) (execBlock_kept options deeper body)
    longer m

theorem Task.perform_kept (options : RunOptions) (more : n ≤ k) (t : Task) (m : Machine) :
    (t.perform options n m).KeptBy (t.perform options k m) := by
  cases t with
  | statement s => exact s.exec_kept options more m
  | round e body => exact rounds_kept options e body more more m
  | write value => exact .inr rfl

theorem performAll_kept (options : RunOptions) (more : n ≤ k) (ts : List Task) (m : Machine) :
    (performAll options n ts m).KeptBy (performAll options k ts m) := by
  induction ts generalizing m with
  | nil => exact .inr rfl
  | cons t ts ih => exact (t.perform_kept options more m).andThen ih

-- A step back costs a loop one round, so the bound grows by one.
theorem round_kept (found : e.eval options.undefined m.store = (.ok value, store)) :
    (performAll options n (roundTasks e body value) { m with store := store }).KeptBy
      (rounds options.undefined e (execBlock options (n + 1) body) (n + 1) m) := by
  rw [rounds_succ, evaluate_ok found]
  unfold roundTasks
  split
  · rw [performAll_append, performAll_statements]
    refine (execBlock_kept options (Nat.le_succ n) body _).andThen fun m => ?_
    rw [performAll_single]
    exact rounds_kept options e body (Nat.le_succ n) (Nat.le_refl n) m
  · exact .inr rfl

theorem exec_kept_next {s : Stmt}
    (found : s.operand.eval options.undefined m.store = (.ok value, store)) :
    (performAll options n (s.nextTasks value) { m.enter options s with store := store }).KeptBy
      (s.exec options (n + 1) m) := by
  rw [← Machine.enter_store options s m] at found
  rw [Stmt.exec_eq]
  cases s with
  | expr e =>
    simp only [Stmt.operand, Stmt.perform, Stmt.nextTasks] at found ⊢
    rw [evaluate_ok found]
    exact .inr rfl
  | branch origin e body =>
    simp only [Stmt.operand, Stmt.perform, Stmt.nextTasks] at found ⊢
    rw [evaluate_ok found]
    split
    · rw [performAll_statements]
      exact execBlock_kept options (Nat.le_succ n) body _
    · exact .inr rfl
  | loop origin e body => exact round_kept found
  | print origin e =>
    simp only [Stmt.operand, Stmt.perform, Stmt.nextTasks] at found ⊢
    rw [evaluate_ok found, performAll_single]
    exact .inr rfl

theorem Next.kept (step : Next options c d) (n : Nat) :
    (d.run options n).KeptBy (c.run options (n + 1)) := by
  unfold Pending.run
  cases step with
  | statement found =>
    rw [performAll_append]
    exact (exec_kept_next found).andThen (performAll_kept options (Nat.le_succ n) _)
  | round found =>
    rw [performAll_append]
    exact (round_kept found).andThen (performAll_kept options (Nat.le_succ n) _)
  | write written =>
    rw [performAll_cons, Task.perform, write_open written]
    exact performAll_kept options (Nat.le_succ n) _ _

theorem exec_error {s : Stmt} {fault : Fault}
    (failed : s.operand.eval options.undefined m.store = (.error fault, store)) :
    s.exec options (n + 1) m = .failed fault { m.enter options s with store := store } := by
  rw [← Machine.enter_store options s m] at failed
  rw [Stmt.exec_eq]
  cases s with
  | expr | branch | print =>
    simp only [Stmt.operand, Stmt.perform] at failed ⊢
    exact evaluate_error failed
  | loop =>
    rw [Stmt.perform, rounds_succ]
    exact evaluate_error failed

theorem Halts.run (halts : Halts options c outcome after) : c.run options 1 = .ended outcome after := by
  cases halts with
  | done => rfl
  | statement failed =>
    rw [Pending.run, performAll_cons, Task.perform, exec_error failed]
    rfl
  | round failed =>
    rw [Pending.run, performAll_cons, Task.perform, rounds_succ, evaluate_error failed]
    rfl
  | write closed =>
    rw [Pending.run, performAll_cons, Task.perform, write_closed closed]
    rfl

theorem ComesTo.run (path : ComesTo options c d) (ran : d.run options n = .ended outcome after) :
    ∃ k, c.run options k = .ended outcome after := by
  induction path using Relation.ReflTransGen.head_induction_on with
  | refl => exact ⟨n, ran⟩
  | head step _ ih =>
    obtain ⟨k, later⟩ := ih
    exact ⟨k + 1, (step.kept k).ended later⟩

theorem ends_stepwise : Ends options body m outcome after ↔
    ∃ c, ComesTo options (.ofProgram body m) c ∧ Halts options c outcome after := by
  constructor
  · rintro ⟨bound, ran⟩
    have story : Story options (body.map .statement) m (.ended outcome after) :=
      ran ▸ Story.block body m
    have whole : Pending.ofProgram body m = ⟨body.map .statement ++ [], m⟩ := by
      rw [List.append_nil, Pending.ofProgram]
    rw [whole]
    cases outcome with
    | none => exact ⟨_, story [], .done⟩
    | some fault => exact story []
  · rintro ⟨c, path, halts⟩
    obtain ⟨bound, ran⟩ := path.run halts.run
    exact ⟨bound, (performAll_statements body m).symm.trans ran⟩

end Answers

end Minilang
