import Minilang.Proofs.StoreEffect
import Minilang.Proofs.StoreLookup

namespace Minilang

def Stmt.allTargets (body : List Stmt) : List String := (Stmt.allExpressions body).flatMap Expr.targets

-- One store comes from another by binding some of the names: no binding is lost, and the other
-- names read as before.
structure Store.BoundTo (names : List String) (s t : Store) : Prop where
  kept : ∀ name, (s.lookup? name).isSome → (t.lookup? name).isSome
  untouched : ∀ name, name ∉ names → t.lookup? name = s.lookup? name

section Frame

variable {options : RunOptions} {mode : UndefinedMode} {es : List Expr} {e : Expr} {m after : Machine}
  {names : List String} {s t u : Store} {name : String} {c d : Configuration}
  {result : Except Fault Int}

namespace Store.BoundTo

theorem refl (names : List String) (s : Store) : s.BoundTo names s :=
  ⟨fun _ bound => bound, fun _ _ => rfl⟩

theorem trans (first : s.BoundTo names t) (second : t.BoundTo names u) : s.BoundTo names u where
  kept name bound := second.kept name (first.kept name bound)
  untouched name other := (second.untouched name other).trans (first.untouched name other)

theorem define (member : name ∈ names) (s : Store) (value : Int) :
    s.BoundTo names (s.define name value) where
  kept other bound := by grind
  untouched other outside := by grind

theorem new (bound : s.BoundTo names t) (free : s.lookup? name = none)
    (found : (t.lookup? name).isSome) : name ∈ names := by
  apply Classical.byContradiction
  intro outside
  rw [bound.untouched name outside, free] at found
  cases found

end Store.BoundTo

theorem Evaluates.boundTo (derived : Evaluates mode e c result d)
    (listed : ∀ name ∈ e.targets, name ∈ names) : c.store.BoundTo names d.store := by
  induction derived with
  | missing | number | valueless | bound | unboundZero | unbound | unknownSign | targetless =>
    exact .refl names _
  | negation _ ih | operandFails _ ih => exact ih listed
  | operation _ _ _ first second | divisionByZero _ _ first second
  | moduloByZero _ _ first second | unknownOperator _ _ _ first second
  | rightFails _ _ first second =>
    obtain ⟨left, right⟩ := List.forall_mem_append.mp listed
    exact (first left).trans (second right)
  | leftFails _ ih => exact ih (List.forall_mem_append.mp listed).1
  | assignment _ ih =>
    obtain ⟨here, inside⟩ := List.forall_mem_cons.mp listed
    exact (ih inside).trans (.define here _ _)
  | valueFails _ ih => exact ih (List.forall_mem_cons.mp listed).2

theorem Step.boundTo (step : Step options es m after) :
    m.store.BoundTo (es.flatMap Expr.targets) after.store := by
  cases step with
  | enter s =>
    rw [Machine.enter_store]
    exact .refl _ _
  | evaluate member found =>
    have derived : Evaluates options.undefined _ ⟨m.store, ""⟩ _ ⟨_, ""⟩ := Evaluates.sound found
    apply derived.boundTo
    intro name target
    exact List.mem_flatMap.mpr ⟨_, member, target⟩
  | print written =>
    obtain ⟨sink, rfl⟩ := Machine.print_eq written
    exact .refl _ _

theorem Steps.boundTo (path : Steps options es m after) :
    m.store.BoundTo (es.flatMap Expr.targets) after.store := by
  induction path with
  | refl => exact .refl _ _
  | tail _ step ih => exact ih.trans step.boundTo

end Frame

theorem runs_bind_targets (options : RunOptions) (body : List Stmt) (m after : Machine)
    (outcome : Option Fault) (ran : Ends options body m outcome after) :
    (∀ name, (m.store.lookup? name).isSome → (after.store.lookup? name).isSome) ∧
    (∀ name, name ∉ Stmt.allTargets body → after.store.lookup? name = m.store.lookup? name) ∧
    ∀ name, m.store.lookup? name = none → (after.store.lookup? name).isSome →
      name ∈ Stmt.allTargets body := by
  have bound : m.store.BoundTo (Stmt.allTargets body) after.store := ran.steps.boundTo
  exact ⟨bound.kept, bound.untouched, fun _ => bound.new⟩

theorem runs_bind_targets_failing :
    let n : Expr := .ident default "n"
    let one : Expr := .number default (some 1)
    let set (name : String) (value : Expr) : Expr := .assign default (some ⟨default, name⟩) value
    let body : List Stmt := [.loop default (set "n" (.binary default "-" n one))
      [.print default (set "m" n)], .expr (.binary default "/" one n)]
    let first : Store := .ofBindings [("k", 7), ("n", 2)]
    let last : Store := .ofBindings [("k", 7), ("m", 1), ("n", 0)]
    Ends {} body (.start first none) (some (.zeroDivisor default "division by zero"))
      ⟨last, #[1], #[], none⟩ ∧
    last.lookup? "k" = first.lookup? "k" ∧ (last.lookup? "n").isSome ∧ "m" ∈ Stmt.allTargets body := by
  intro n one set body first last
  have ran : Ends {} body (.start first none) (some (.zeroDivisor default "division by zero"))
      ⟨last, #[1], #[], none⟩ := ⟨3, rfl⟩
  obtain ⟨kept, untouched, new⟩ := runs_bind_targets {} body _ _ _ ran
  have outside : "k" ∉ Stmt.allTargets body := by
    simp [body, set, n, one, Stmt.allTargets, Stmt.allExpressions, Stmt.expressions, Expr.targets]
  exact ⟨ran, untouched "k" outside, kept "n" rfl, new "m" rfl rfl⟩

end Minilang
