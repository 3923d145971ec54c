import Minilang.Proofs.StoreEffect

namespace Minilang

section Rounds

variable {options : RunOptions} {mode : UndefinedMode} {guard : Expr} {inside : Machine → Progress}
  {n : Nat} {m after : Machine} {origin : Token} {body : List Stmt}

-- Whatever the rounds did, the last thing done was to find the guard zero, and the store is
-- the one that this left.
theorem rounds_left (ran : rounds mode guard inside n m = .ended none after) :
    ∃ before, guard.eval mode before = (.ok 0, after.store) := by
  induction n generalizing m with
  | zero => cases ran
  | succ n ih =>
    rw [rounds_succ] at ran
    rcases found : guard.eval mode m.store with ⟨fault | value, store⟩
    · rw [evaluate_error found] at ran
      cases ran
    · rw [evaluate_ok found] at ran
      by_cases zero : value = 0
      · subst zero
        obtain ⟨-, rfl⟩ := Progress.finished_ended ran
        exact ⟨m.store, found⟩
      · rw [if_pos (by simpa [Integer.truthy] using zero)] at ran
        rcases andThen_ended ran with ⟨mid, -, again⟩ | ⟨fault, failed, -⟩
        · exact ih again
        · cases failed

theorem loop_left (ran : Ends options [.loop origin guard body] m none after) :
    ∃ before, guard.eval options.undefined before = (.ok 0, after.store) := by
  obtain ⟨bound, finished⟩ := ends_single.mp ran
  rw [Stmt.exec_eq, Stmt.perform] at finished
  exact rounds_left finished

theorem Next.leave (zero : guard.eval options.undefined m.store = (.ok 0, m.store)) :
    ∃ last, Next options (.ofProgram [.loop origin guard body] m) ⟨[], last⟩ ∧
      last.store = m.store ∧ last.printed = m.printed ∧ last.sink = m.sink := by
  let loop : Stmt := .loop origin guard body
  have step : Next options ⟨[.statement loop], m⟩
      ⟨loop.nextTasks 0 ++ [], { m.enter options loop with store := m.store }⟩ := .statement zero
  obtain ⟨trace, entered⟩ := m.enter_eq options loop
  rw [entered] at step
  exact ⟨_, step, rfl, rfl, rfl⟩

end Rounds

theorem finished_loop_stays (options : RunOptions) (origin : Token) (guard : Expr) (body : List Stmt)
    (unassigned : guard.targets = []) (m after : Machine)
    (ran : Ends options [.loop origin guard body] m none after) :
    guard.eval options.undefined after.store = (.ok 0, after.store) ∧
    ∀ again : Machine, again.store = after.store →
      ∃ last, Next options (.ofProgram [.loop origin guard body] again) ⟨[], last⟩ ∧
        Ends options [.loop origin guard body] again none last ∧
        last.store = after.store ∧ last.printed = again.printed ∧ last.sink = again.sink := by
  obtain ⟨before, found⟩ := loop_left ran
  have derived : Evaluates options.undefined guard ⟨before, ""⟩ (.ok 0) ⟨after.store, ""⟩ :=
    Evaluates.sound found
  cases derived.untargeted unassigned
  refine ⟨found, fun again same => ?_⟩
  rw [← same] at found ⊢
  obtain ⟨last, step, kept⟩ := Next.leave found
  exact ⟨last, step, ends_stepwise.mpr ⟨_, .single step, .done⟩, kept⟩

theorem finished_loop_stays_countdown :
    let x : Expr := .ident default "x"
    let loop : Stmt := .loop default x [.print default (.assign default (some ⟨default, "x"⟩)
      (.binary default "-" x (.number default (some 1))))]
    let zero : Store := .ofBindings [("x", 0)]
    Ends {} [loop] (.start (.ofBindings [("x", 1)]) none) none ⟨zero, #[0], #[], none⟩ ∧
    x.eval .strict zero = (.ok 0, zero) ∧
    ∃ last, Next {} (.ofProgram [loop] (.start zero (some ⟨0, "closed"⟩))) ⟨[], last⟩ ∧
      last.store = zero ∧ last.printed = #[] := by
  intro x loop zero
  have ran : Ends {} [loop] (.start (.ofBindings [("x", 1)]) none) none ⟨zero, #[0], #[], none⟩ :=
    ⟨2, rfl⟩
  obtain ⟨left, stays⟩ := finished_loop_stays {} default x _ rfl _ _ ran
  obtain ⟨last, step, -, store, printed, -⟩ := stays (.start zero (some ⟨0, "closed"⟩)) rfl
  exact ⟨ran, left, last, step, store, printed⟩

end Minilang
