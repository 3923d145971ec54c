import Minilang.Proofs.Running

namespace Minilang

-- Answers of two runs that ended in the same way on related machines, or of which the first
-- one was given too small a bound.
inductive Progress.Alike (R : Machine → Machine → Prop) : Progress → Progress → Prop where
  | finished (related : R m k) : Alike R (.finished m) (.finished k)
  | failed (related : R m k) : Alike R (.failed fault m) (.failed fault k)
  | unfinished : Alike R .unfinished p

inductive PrintsAlike (R : Machine → Machine → Prop) :
    Except String Machine → Except String Machine → Prop where
  | taken (related : R m k) : PrintsAlike R (.ok m) (.ok k)
  | refused : PrintsAlike R (.error error) (.error error)

theorem PrintsAlike.ofMap {f : Machine → Machine} {one two : Except String Machine}
    (same : one.map f = two.map f) : PrintsAlike (fun m k => f m = f k) one two := by
  cases one with
  | error refusal =>
    cases two with
    | error => cases same; exact .refused
    | ok => cases same
  | ok m =>
    cases two with
    | error => cases same
    | ok k => exact .taken (Except.ok.inj same)

structure Lockstep (one two : RunOptions) (es : List Expr) (R : Machine → Machine → Prop) :
    Prop where
  evaluate : ∀ {e m k}, e ∈ es → R m k → ∃ result s t,
    e.eval one.undefined m.store = (result, s) ∧ e.eval two.undefined k.store = (result, t) ∧
      R { m with store := s } { k with store := t }
  print : ∀ {m k} value, R m k → PrintsAlike R (m.print value) (k.print value)
  enter : ∀ {m k} s, R m k → R (m.enter one s) (k.enter two s)

namespace Lockstep

variable {one two : RunOptions} {es : List Expr} {e : Expr} {R : Machine → Machine → Prop}
  {p q : Progress} {f g : Machine → Progress} {m k after : Machine} {body : List Stmt}
  {outcome : Option Fault}

theorem andThen (first : p.Alike R q) (later : ∀ m k, R m k → (f m).Alike R (g k)) :
    (p.andThen f).Alike R (q.andThen g) := by
  cases first with
  | finished related => exact later _ _ related
  | failed related => exact .failed related
  | unfinished => exact .unfinished

theorem evaluated (steps : Lockstep one two es R) (member : e ∈ es) (related : R m k)
    {f g : Int → Machine → Progress} (next : ∀ value m k, R m k → (f value m).Alike R (g value k)) :
    (m.evaluate one.undefined e f).Alike R (k.evaluate two.undefined e g) := by
  obtain ⟨result, s, t, here, there, kept⟩ := steps.evaluate member related
  cases result with
  | error fault =>
    rw [evaluate_error here, evaluate_error there]
    exact .failed kept
  | ok value =>
    rw [evaluate_ok here, evaluate_ok there]
    exact next value _ _ kept

theorem written (steps : Lockstep one two es R) (value : Int) (related : R m k) :
    (m.write value).Alike R (k.write value) := by
  have both := steps.print value related
  unfold Machine.write
  generalize m.print value = here at both ⊢
  generalize k.print value = there at both ⊢
  cases both with
  | taken after => exact .finished after
  | refused => exact .failed related

theorem congruent (steps : Lockstep one two es R) :
    Congruent one two es fun f g => ∀ m k, R m k → (f m).Alike R (g k) where
  finish _ _ related := .finished related
  follow first later m k related := andThen (first m k related) later
  evaluate member next _ _ related := steps.evaluated member related next
  write value _ _ related := steps.written value related
  enter s _ _ related := .finished (steps.enter s related)
  unfinished _ _ _ := .unfinished
  less _ _ _ _ := .unfinished

theorem ended (steps : Lockstep one two (Stmt.allExpressions body) R) (related : R m k) {bound : Nat}
    (ran : execBlock one bound body m = .ended outcome after) :
    ∃ last, execBlock two bound body k = .ended outcome last ∧ R after last := by
  have alike := steps.congruent.block (Nat.le_refl bound) body (fun _ listed => listed) m k related
  rw [ran] at alike
  generalize other : execBlock two bound body k = result at alike
  cases outcome with
  | none =>
    cases alike with
    | finished kept => exact ⟨_, rfl, kept⟩
  | some fault =>
    cases alike with
    | failed kept => exact ⟨_, rfl, kept⟩

theorem ends (steps : Lockstep one two (Stmt.allExpressions body) R) (related : R m k)
    (ran : Ends one body m outcome after) : ∃ last, Ends two body k outcome last ∧ R after last := by
  obtain ⟨bound, ran⟩ := ran
  obtain ⟨last, other, kept⟩ := steps.ended related ran
  exact ⟨last, ⟨bound, other⟩, kept⟩

theorem symm (steps : Lockstep one two es R) : Lockstep two one es (flip R) where
  evaluate member related := by
    obtain ⟨result, s, t, here, there, kept⟩ := steps.evaluate member related
    exact ⟨result, t, s, there, here, kept⟩
  print {m k} value related := by
    have both := steps.print value related
    generalize m.print value = here at both ⊢
    generalize k.print value = there at both ⊢
    cases both with
    | taken kept => exact .taken kept
    | refused => exact .refused
  enter s related := steps.enter s related

end Lockstep

end Minilang
