import Minilang.Proofs.BigStep
import Minilang.Proofs.Running

namespace Minilang

section Soundness

variable {options : RunOptions} {mode : UndefinedMode} {bound n : Nat} {m after : Machine}
  {e : Expr} {body : List Stmt} {s : Stmt} {origin : Token} {outcome : Option Fault}

def Machine.shown (m : Machine) : Configuration := ⟨m.store, m.output⟩

theorem evaluate_ended {next : Int → Machine → Progress}
    (ran : m.evaluate mode e next = .ended outcome after) :
    (∃ fault, outcome = some fault ∧ after.sink = m.sink ∧
      Evaluates mode e m.shown (.error fault) after.shown) ∨
    ∃ value mid, next value mid = .ended outcome after ∧ mid.sink = m.sink ∧
      Evaluates mode e m.shown (.ok value) mid.shown := by
  rcases found : e.eval mode m.store with ⟨fault | value, store⟩
  · rw [evaluate_error found] at ran
    obtain ⟨rfl, rfl⟩ := Progress.failed_ended ran
    exact .inl ⟨fault, rfl, rfl, Evaluates.sound (c := m.shown) found⟩
  · rw [evaluate_ok found] at ran
    exact .inr ⟨value, _, ran, rfl, Evaluates.sound (c := m.shown) found⟩

-- A way of running keeps to a rule when every end it comes to, with an output that takes
-- everything, is one that the rule allows.
def KeepsTo (rule : Configuration → Option Fault → Configuration → Prop)
    (run : Machine → Progress) : Prop :=
  ∀ ⦃m outcome after⦄, m.sink = none → run m = .ended outcome after →
    after.sink = none ∧ rule m.shown outcome after.shown

theorem write_ended (free : m.sink = none) (value : Int) :
    ∃ after, m.write value = .finished after ∧ after.sink = none ∧ after.store = m.store ∧
      after.printed = m.printed.push value := by
  refine ⟨{ m with printed := m.printed.push value }, ?_, free, rfl, rfl⟩
  rw [Machine.write, Machine.print, free]

theorem shown_push (kept : after.store = m.store) (printed : after.printed = m.printed.push value) :
    after.shown = m.shown.print value := by
  simp [Machine.shown, Configuration.print, Machine.output, Machine.outputLines, kept, printed]

theorem branch_sound
    (inside : KeepsTo (RunsAll options.undefined body) (execBlock options bound body)) :
    KeepsTo (Runs options.undefined (.branch origin e body))
      (Stmt.perform options bound (.branch origin e body)) := by
  intro m outcome after free ran
  simp only [Stmt.perform] at ran
  rcases evaluate_ended ran with ⟨fault, rfl, sink, guard⟩ | ⟨value, mid, ran, sink, guard⟩
  · exact ⟨sink.trans free, .branchFails guard⟩
  · by_cases zero : value = 0
    · subst zero
      obtain ⟨rfl, rfl⟩ := Progress.finished_ended ran
      exact ⟨sink.trans free, .skipped guard⟩
    · rw [if_pos (by simpa [Integer.truthy] using zero)] at ran
      obtain ⟨kept, derived⟩ := inside (sink.trans free) ran
      exact ⟨kept, .taken guard zero derived⟩

theorem rounds_sound (inside : KeepsTo (RunsAll mode body) run) (n : Nat) :
    KeepsTo (Runs mode (.loop origin e body)) (rounds mode e run n) := by
  induction n with
  | zero =>
    intro m outcome after free ran
    cases outcome <;> cases ran
  | succ n ih =>
    intro m outcome after free ran
    rw [rounds_succ] at ran
    rcases evaluate_ended ran with ⟨fault, rfl, sink, guard⟩ | ⟨value, mid, ran, sink, guard⟩
    · exact ⟨sink.trans free, .loopFails guard⟩
    · by_cases zero : value = 0
      · subst zero
        obtain ⟨rfl, rfl⟩ := Progress.finished_ended ran
        exact ⟨sink.trans free, .left guard⟩
      · rw [if_pos (by simpa [Integer.truthy] using zero)] at ran
        rcases andThen_ended ran with ⟨last, went, again⟩ | ⟨fault, rfl, broke⟩
        · obtain ⟨kept, derived⟩ := inside (sink.trans free) went
          obtain ⟨free, others⟩ := ih kept again
          exact ⟨free, .round guard zero derived others⟩
        · obtain ⟨kept, derived⟩ := inside (sink.trans free) broke
          exact ⟨kept, .roundFails guard zero derived⟩

theorem print_sound : KeepsTo (Runs options.undefined (.print origin e))
    (Stmt.perform options bound (.print origin e)) := by
  intro m outcome after free ran
  rcases evaluate_ended ran with ⟨fault, rfl, sink, failed⟩ | ⟨value, mid, ran, sink, derived⟩
  · exact ⟨sink.trans free, .printFails failed⟩
  · obtain ⟨last, wrote, kept, store, printed⟩ := write_ended (sink.trans free) value
    rw [wrote] at ran
    obtain ⟨rfl, rfl⟩ := Progress.finished_ended ran
    rw [shown_push store printed]
    exact ⟨kept, .printed derived⟩

theorem expression_sound : KeepsTo (Runs options.undefined (.expr e))
    (Stmt.perform options bound (.expr e)) := by
  intro m outcome after free ran
  rcases evaluate_ended ran with ⟨fault, rfl, sink, failed⟩ | ⟨value, mid, ran, sink, derived⟩
  · exact ⟨sink.trans free, .expressionFails failed⟩
  · obtain ⟨rfl, rfl⟩ := Progress.finished_ended ran
    exact ⟨sink.trans free, .expression derived⟩

theorem exec_sound (performed : KeepsTo (Runs options.undefined s) (s.perform options bound)) :
    KeepsTo (Runs options.undefined s) (s.exec options bound) := by
  intro m outcome after free ran
  obtain ⟨trace, same⟩ := m.enter_eq options s
  rw [Stmt.exec_eq, same] at ran
  exact performed (m := { m with trace := trace }) free ran

mutual
theorem Stmt.perform_sound :
    ∀ s : Stmt, KeepsTo (Runs options.undefined s) (s.perform options bound)
  | .expr _ => expression_sound
  | .branch _ _ body => branch_sound (execBlock_sound body)
  | .loop _ _ body => rounds_sound (execBlock_sound body) bound
  | .print _ _ => print_sound

theorem execBlock_sound :
    ∀ body, KeepsTo (RunsAll options.undefined body) (execBlock options bound body)
  | [] => by
    intro m outcome after free ran
    rw [execBlock_nil] at ran
    obtain ⟨rfl, rfl⟩ := Progress.finished_ended ran
    exact ⟨free, .nil⟩
  | s :: body => by
    intro m outcome after free ran
    rw [execBlock_cons] at ran
    have first := exec_sound (Stmt.perform_sound s)
    rcases andThen_ended ran with ⟨mid, went, later⟩ | ⟨fault, rfl, broke⟩
    · obtain ⟨kept, one⟩ := first free went
      obtain ⟨kept, others⟩ := execBlock_sound body kept later
      exact ⟨kept, .cons one others⟩
    · obtain ⟨kept, one⟩ := first free broke
      exact ⟨kept, .stop one⟩
end

end Soundness

section Completeness

variable {options : RunOptions} {mode : UndefinedMode} {n k : Nat} {m mid after : Machine}
  {e : Expr} {body : List Stmt} {s : Stmt} {origin : Token} {outcome : Option Fault} {c d f : Configuration}

def linesOf (values : List Int) : String :=
  String.join (values.map fun value => decimal value ++ "\n")

-- A machine goes along with a derivation: it has the same variables, and prints the same
-- lines behind those it had printed before.
structure GoesAlong (c d : Configuration) (m after : Machine) : Prop where
  free : after.sink = none
  store : after.store = d.store
  printed : ∃ values, after.printed.toList = m.printed.toList ++ values ∧
    d.output = c.output ++ linesOf values

theorem GoesAlong.trans (first : GoesAlong c d m mid) (second : GoesAlong d f mid after) :
    GoesAlong c f m after := by
  obtain ⟨early, one, shown⟩ := first.printed
  obtain ⟨late, two, last⟩ := second.printed
  refine ⟨second.free, second.store, early ++ late, by rw [two, one, List.append_assoc], ?_⟩
  rw [last, shown, String.append_assoc]
  simp [linesOf]

theorem GoesAlong.quiet (free : m.sink = none) (same : d.output = c.output) :
    GoesAlong c d m { m with store := d.store } :=
  ⟨free, rfl, [], by simp, by simp [same, linesOf]⟩

theorem GoesAlong.determined (along : GoesAlong c d m after) (other : GoesAlong c f m after) :
    d = f := by
  obtain ⟨values, printed, shown⟩ := along.printed
  obtain ⟨again, same, likewise⟩ := other.printed
  cases List.append_cancel_left (printed.symm.trans same)
  exact Configuration.ext (along.store.symm.trans other.store) (shown.trans likewise.symm)

theorem GoesAlong.output {first : Store}
    (along : GoesAlong ⟨first, ""⟩ d (.start first none) after) : after.output = d.output := by
  obtain ⟨values, printed, shown⟩ := along.printed
  rw [shown, Machine.output, Machine.outputLines, printed]
  simp [Machine.start, linesOf, Function.comp_def]

def Reaches (run : Nat → Machine → Progress) (c : Configuration) (outcome : Option Fault)
    (d : Configuration) : Prop :=
  ∀ ⦃m⦄, m.sink = none → m.store = c.store →
    ∃ n after, run n m = .ended outcome after ∧ GoesAlong c d m after

theorem evaluates_value (derived : Evaluates mode e c (.ok v) d) (free : m.sink = none)
    (same : m.store = c.store) :
    ∃ mid, (∀ next, m.evaluate mode e next = next v mid) ∧ GoesAlong c d m mid := by
  obtain ⟨found, output⟩ := derived.complete
  rw [← same] at found
  exact ⟨_, fun _ => evaluate_ok found, .quiet free output⟩

theorem evaluates_fault (derived : Evaluates mode e c (.error fault) d) (free : m.sink = none)
    (same : m.store = c.store) :
    ∃ after, (∀ next, m.evaluate mode e next = .ended (some fault) after) ∧
      GoesAlong c d m after := by
  obtain ⟨found, output⟩ := derived.complete
  rw [← same] at found
  exact ⟨_, fun _ => evaluate_error found, .quiet free output⟩

theorem print_complete (value : Evaluates options.undefined e c (.ok v) d) :
    Reaches (Stmt.perform options · (.print origin e)) c none (d.print v) := by
  intro m free same
  obtain ⟨mid, went, along⟩ := evaluates_value value free same
  obtain ⟨after, wrote, kept, store, printed⟩ := write_ended along.free v
  have last : GoesAlong d (d.print v) mid after :=
    ⟨kept, store.trans along.store, [v], by simp [printed], by simp [Configuration.print, linesOf]⟩
  exact ⟨0, after, (went _).trans wrote, along.trans last⟩

theorem branch_complete (guard : Evaluates options.undefined e c (.ok v) d) (holds : v ≠ 0)
    (inside : Reaches (execBlock options · body) d outcome f) :
    Reaches (Stmt.perform options · (.branch origin e body)) c outcome f := by
  intro m free same
  obtain ⟨mid, went, along⟩ := evaluates_value guard free same
  obtain ⟨n, after, ran, further⟩ := inside along.free along.store
  refine ⟨n, after, ?_, along.trans further⟩
  simp only [Stmt.perform]
  rw [went, if_pos (by simpa [Integer.truthy] using holds)]
  exact ran

theorem skipped_complete (guard : Evaluates options.undefined e c (.ok 0) d) :
    Reaches (Stmt.perform options · (.branch origin e body)) c none d := by
  intro m free same
  obtain ⟨mid, went, along⟩ := evaluates_value guard free same
  refine ⟨0, mid, ?_, along⟩
  simp only [Stmt.perform]
  rw [went]
  rfl

theorem left_complete (guard : Evaluates options.undefined e c (.ok 0) d) :
    Reaches (Stmt.perform options · (.loop origin e body)) c none d := by
  intro m free same
  obtain ⟨mid, went, along⟩ := evaluates_value guard free same
  refine ⟨1, mid, ?_, along⟩
  simp only [Stmt.perform]
  rw [rounds_succ, went]
  rfl

theorem round_complete (guard : Evaluates options.undefined e c (.ok v) d) (holds : v ≠ 0)
    (inside : Reaches (execBlock options · body) d none f)
    (again : Reaches (Stmt.perform options · (.loop origin e body)) f outcome g) :
    Reaches (Stmt.perform options · (.loop origin e body)) c outcome g := by
  intro m free same
  obtain ⟨mid, went, along⟩ := evaluates_value guard free same
  obtain ⟨n, last, ran, further⟩ := inside along.free along.store
  obtain ⟨k, after, others, rest⟩ := again further.free further.store
  refine ⟨max n k + 1, after, ?_, (along.trans further).trans rest⟩
  have round := (execBlock_kept options (show n ≤ max n k + 1 by omega) body mid).ended ran
  have longer := execBlock_kept options (show k ≤ max n k + 1 by omega) body
  have later := ((answers_kept options [e]).loop (List.mem_singleton.mpr rfl) longer
    (Nat.le_max_right n k) last).ended others
  simp only [Stmt.perform]
  rw [rounds_succ, went, if_pos (by simpa [Integer.truthy] using holds), round]
  exact later

theorem roundFails_complete (guard : Evaluates options.undefined e c (.ok v) d) (holds : v ≠ 0)
    (inside : Reaches (execBlock options · body) d (some fault) f) :
    Reaches (Stmt.perform options · (.loop origin e body)) c (some fault) f := by
  intro m free same
  obtain ⟨mid, went, along⟩ := evaluates_value guard free same
  obtain ⟨n, after, ran, further⟩ := inside along.free along.store
  refine ⟨n + 1, after, ?_, along.trans further⟩
  have round := (execBlock_kept options (Nat.le_succ n) body mid).ended ran
  simp only [Stmt.perform]
  rw [rounds_succ, went, if_pos (by simpa [Integer.truthy] using holds), round]
  rfl

-- Every statement starts with an expression, and stops where that fails.
theorem failure_complete
    (opening : ∀ m, ∃ next, s.perform options 1 m = m.evaluate options.undefined e next)
    (failed : Evaluates options.undefined e c (.error fault) d) :
    Reaches (Stmt.perform options · s) c (some fault) d := by
  intro m free same
  obtain ⟨after, went, along⟩ := evaluates_fault failed free same
  obtain ⟨next, opens⟩ := opening m
  exact ⟨1, after, opens.trans (went next), along⟩

theorem exec_complete (performed : Reaches (Stmt.perform options · s) c outcome d) :
    Reaches (Stmt.exec options · s) c outcome d := by
  intro m free same
  obtain ⟨trace, entered⟩ := m.enter_eq options s
  obtain ⟨n, after, ran, along⟩ := performed (m := { m with trace := trace }) free same
  refine ⟨n, after, ?_, along.free, along.store, along.printed⟩
  dsimp only at ran ⊢
  rw [Stmt.exec_eq, entered, ran]

theorem cons_complete (first : Reaches (Stmt.exec options · s) c none d)
    (later : Reaches (execBlock options · body) d outcome f) :
    Reaches (execBlock options · (s :: body)) c outcome f := by
  intro m free same
  obtain ⟨n, mid, one, along⟩ := first free same
  obtain ⟨k, after, two, further⟩ := later along.free along.store
  refine ⟨max n k, after, ?_, along.trans further⟩
  dsimp only
  rw [execBlock_cons, (s.exec_kept options (Nat.le_max_left n k) m).ended one]
  exact (execBlock_kept options (Nat.le_max_right n k) body mid).ended two

theorem stop_complete (first : Reaches (Stmt.exec options · s) c (some fault) d) :
    Reaches (execBlock options · (s :: body)) c (some fault) d := by
  intro m free same
  obtain ⟨n, after, one, along⟩ := first free same
  refine ⟨n, after, ?_, along⟩
  dsimp only at one ⊢
  rw [execBlock_cons, one]
  rfl

end Completeness

mutual
theorem Runs.complete (options : RunOptions) :
    Runs options.undefined s c outcome d → Reaches (Stmt.perform options · s) c outcome d
  | .expression value => by
    intro m free same
    obtain ⟨mid, went, along⟩ := evaluates_value value free same
    exact ⟨0, mid, went _, along⟩
  | .skipped guard => skipped_complete guard
  | .left guard => left_complete guard
  | .taken guard holds inside => branch_complete guard holds (inside.complete options)
  | .round guard holds inside again =>
    round_complete guard holds (inside.complete options) (again.complete options)
  | .roundFails guard holds inside => roundFails_complete guard holds (inside.complete options)
  | .printed value => print_complete value
  | .expressionFails failed => failure_complete (fun _ => ⟨_, rfl⟩) failed
  | .branchFails failed => failure_complete (fun _ => ⟨_, by simp only [Stmt.perform]; rfl⟩) failed
  | .loopFails failed =>
    failure_complete (fun _ => ⟨_, by simp only [Stmt.perform]; exact rounds_succ ..⟩) failed
  | .printFails failed => failure_complete (fun _ => ⟨_, rfl⟩) failed

theorem RunsAll.complete (options : RunOptions) :
    RunsAll options.undefined body c outcome d → Reaches (execBlock options · body) c outcome d
  | .nil => by
    intro m free same
    exact ⟨0, m, execBlock_nil m, free, same, [], by simp, by simp [linesOf]⟩
  | .cons first later =>
    cons_complete (exec_complete (first.complete options)) (later.complete options)
  | .stop first => stop_complete (exec_complete (first.complete options))
end

-- Two derivations from one configuration are followed by one run.
theorem RunsAll.unique {mode : UndefinedMode} (first : RunsAll mode body c one d)
    (second : RunsAll mode body c two f) : one = two ∧ d = f := by
  let start : Machine := .start c.store none
  obtain ⟨n, after, ran, along⟩ := RunsAll.complete ⟨mode, false⟩ first (m := start) rfl rfl
  obtain ⟨k, last, again, other⟩ := RunsAll.complete ⟨mode, false⟩ second (m := start) rfl rfl
  obtain ⟨rfl, rfl⟩ := Ends.unique ⟨n, ran⟩ ⟨k, again⟩
  exact ⟨rfl, along.determined other⟩

theorem runs_exact (options : RunOptions) (body : List Stmt) (store : Store) :
    (∀ outcome last output,
      (∃ after, Ends options body (.start store none) outcome after ∧
        after.store = last ∧ after.output = output) ↔
      RunsAll options.undefined body ⟨store, ""⟩ outcome ⟨last, output⟩) ∧
    ∀ c one two d f, RunsAll options.undefined body c one d →
      RunsAll options.undefined body c two f → one = two ∧ d = f := by
  refine ⟨?_, fun _ _ _ _ _ => RunsAll.unique⟩
  intro outcome last output
  constructor
  · rintro ⟨after, ⟨bound, ran⟩, rfl, rfl⟩
    exact (execBlock_sound body rfl ran).2
  · intro derived
    obtain ⟨bound, after, ran, along⟩ := derived.complete options (m := .start store none) rfl rfl
    exact ⟨after, ⟨bound, ran⟩, along.store, along.output⟩

def countdown : List Stmt :=
  let n : Expr := .ident default "n"
  let one : Expr := .number default (some 1)
  let set (value : Expr) : Expr := .assign default (some ⟨default, "n"⟩) value
  [.expr (set (.number default (some 2))),
    .loop default (set (.binary default "-" n one)) [.print default n],
    .expr (.binary default "/" one n)]

theorem runs_exact_countdown :
    let last : Configuration := ⟨.ofBindings [("n", 0)], "1\n"⟩
    RunsAll .strict countdown ⟨.empty, ""⟩ (some (.zeroDivisor default "division by zero")) last ∧
      ¬RunsAll .strict countdown ⟨.empty, ""⟩ none last := by
  intro last
  have exact := runs_exact ⟨.strict, false⟩ countdown .empty
  have derived : RunsAll .strict countdown ⟨.empty, ""⟩
      (some (.zeroDivisor default "division by zero")) last :=
    (exact.1 _ _ _).mp ⟨⟨last.store, #[1], #[], none⟩, ⟨3, rfl⟩, rfl, rfl⟩
  refine ⟨derived, fun other => ?_⟩
  have same := (exact.2 _ _ _ _ _ derived other).1
  cases same

end Minilang
