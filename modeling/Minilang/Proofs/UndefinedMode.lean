import Minilang.Proofs.FaultOrigin
import Minilang.Proofs.Running

namespace Minilang

def Fault.IsUndefined (fault : Fault) : Prop :=
  ∃ e, fault = .runtime e ∧ e.kind = .undefinedVariable

-- All of an evaluation but the undefined read is the same in both modes.
theorem Evaluates.lenient (derived : Evaluates .strict e c result d)
    (defined : ∀ fault, result = .error fault → ¬fault.IsUndefined) :
    Evaluates .zero e c result d := by
  induction derived with
  | missing => exact .missing
  | number => exact .number
  | valueless => exact .valueless
  | bound found => exact .bound found
  | unboundZero _ lenient => cases lenient
  | unbound => exact absurd ⟨_, rfl, rfl⟩ (defined _ rfl)
  | negation _ ih => exact .negation (ih (by simp))
  | operandFails _ ih => exact .operandFails (ih defined)
  | unknownSign unknown => exact .unknownSign unknown
  | operation _ _ computed first second =>
    exact .operation (first (by simp)) (second (by simp)) computed
  | divisionByZero _ _ first second => exact .divisionByZero (first (by simp)) (second (by simp))
  | moduloByZero _ _ first second => exact .moduloByZero (first (by simp)) (second (by simp))
  | unknownOperator _ _ unknown first second =>
    exact .unknownOperator (first (by simp)) (second (by simp)) unknown
  | leftFails _ ih => exact .leftFails (ih defined)
  | rightFails _ _ first second => exact .rightFails (first (by simp)) (second defined)
  | assignment _ ih => exact .assignment (ih (by simp))
  | valueFails _ ih => exact .valueFails (ih defined)
  | targetless => exact .targetless

theorem eval_lenient {e : Expr} (found : e.eval .strict s = (result, last))
    (defined : ∀ fault, result = .error fault → ¬fault.IsUndefined) :
    e.eval .zero s = (result, last) :=
  ((Evaluates.sound (c := ⟨s, ""⟩) found).lenient defined).complete.1

theorem Raises.defined (raises : Raises .zero last node fault) : ¬fault.IsUndefined := by
  rintro ⟨e, same, kind⟩
  cases raises with
  | unbound _ strict => cases strict
  | division | modulo =>
    cases same
    cases kind
  | missing | sign | operator | target => cases same

-- How a run in strict mode compares with one that reads zero: it says the same, says
-- nothing, or stopped at an undefined read while the other one went on printing.
inductive Progress.ExtendedBy : Progress → Progress → Prop where
  | same : ExtendedBy p p
  | unfinished : ExtendedBy .unfinished p
  | further (undefined : fault.IsUndefined)
      (printed : ∀ outcome after, p = .ended outcome after →
        m.printed.toList <+: after.printed.toList) : ExtendedBy (.failed fault m) p

section Runs

variable {options : RunOptions} {es : List Expr} {e : Expr} {m after : Machine} {p q : Progress}
  {f g : Machine → Progress} {tracing : Bool} {body : List Stmt}

theorem Progress.From.printed (story : p.From options es m) (outcome : Option Fault)
    (after : Machine) (ran : p = .ended outcome after) : m.printed.toList <+: after.printed.toList := by
  subst ran
  cases outcome with
  | none => exact Steps.printed story
  | some fault => exact Steps.printed story.1

theorem Progress.ExtendedBy.andThen (first : p.ExtendedBy q) (later : ∀ m, (f m).ExtendedBy (g m))
    (stepwise : ∀ m, (g m).From options es m) : (p.andThen f).ExtendedBy (q.andThen g) := by
  cases first with
  | same =>
    cases p with
    | finished after => exact later after
    | failed fault after => exact .same
    | unfinished => exact .unfinished
  | unfinished => exact .unfinished
  | further undefined printed =>
    refine .further undefined fun outcome after ran => ?_
    rcases andThen_ended ran with ⟨mid, went, behind⟩ | ⟨fault, _, broke⟩
    · exact (printed _ mid went).trans ((stepwise mid).printed outcome after behind)
    · exact printed _ after broke

theorem evaluate_extended {f g : Int → Machine → Progress} (member : e ∈ es)
    (later : ∀ value m, (f value m).ExtendedBy (g value m))
    (stepwise : ∀ value m, (g value m).From ⟨.zero, tracing⟩ es m) (m : Machine) :
    (m.evaluate .strict e f).ExtendedBy (m.evaluate .zero e g) := by
  rcases found : e.eval .strict m.store with ⟨fault | value, store⟩
  · rw [evaluate_error found]
    by_cases undefined : fault.IsUndefined
    · exact .further undefined (evaluate_from member stepwise m).printed
    · have same := eval_lenient found fun other equal => by cases equal; exact undefined
      rw [evaluate_error same]
      exact .same
  · rw [evaluate_ok found, evaluate_ok (eval_lenient found (by simp))]
    exact later value _

theorem strict_extended (tracing : Bool) (es : List Expr) :
    Congruent ⟨.strict, tracing⟩ ⟨.zero, tracing⟩ es fun f g =>
      (∀ m, (f m).ExtendedBy (g m)) ∧ ∀ m, (g m).From ⟨.zero, tracing⟩ es m where
  finish := ⟨fun _ => .same, fun _ => Relation.ReflTransGen.refl⟩
  follow first later :=
    ⟨fun m => (first.1 m).andThen later.1 later.2, fun m => (first.2 m).andThen later.2⟩
  evaluate member next :=
    ⟨evaluate_extended member (fun value => (next value).1) fun value => (next value).2,
      evaluate_from member fun value => (next value).2⟩
  write value := ⟨fun _ => .same, write_from value⟩
  enter s := ⟨fun _ => .same, enter_from s⟩
  unfinished := ⟨fun _ => .same, fun _ => trivial⟩
  less related := ⟨fun _ => .unfinished, related.2⟩

theorem execBlock_extended (tracing : Bool) (more : n ≤ k) (body : List Stmt) (m : Machine) :
    (execBlock ⟨.strict, tracing⟩ n body m).ExtendedBy (execBlock ⟨.zero, tracing⟩ k body m) :=
  ((strict_extended tracing _).block more body fun _ listed => listed).1 m

theorem Ends.lenient (ran : Ends ⟨.strict, tracing⟩ body m outcome after)
    (defined : ∀ fault, outcome = some fault → ¬fault.IsUndefined) :
    Ends ⟨.zero, tracing⟩ body m outcome after := by
  obtain ⟨bound, ended⟩ := ran
  have extended := execBlock_extended tracing (Nat.le_refl bound) body m
  rw [ended] at extended
  refine ⟨bound, ?_⟩
  generalize execBlock ⟨.zero, tracing⟩ bound body m = other at extended ⊢
  cases outcome with
  | none =>
    cases extended
    rfl
  | some fault =>
    cases extended with
    | same => rfl
    | further undefined => exact absurd undefined (defined fault rfl)

theorem Ends.further (strict : Ends ⟨.strict, tracing⟩ body m (some fault) after)
    (zero : Ends ⟨.zero, tracing⟩ body m outcome last) :
    after.printed.toList <+: last.printed.toList := by
  obtain ⟨n, stopped⟩ := strict
  obtain ⟨k, ran⟩ := zero
  have extended := execBlock_extended tracing (Nat.le_max_left n k) body m
  rw [stopped, (execBlock_kept _ (Nat.le_max_right n k) body m).ended ran] at extended
  generalize ended : Progress.ended outcome last = other at extended
  cases extended with
  | same =>
    obtain ⟨_, rfl⟩ := Progress.failed_ended ended.symm
    exact List.prefix_rfl
  | further _ printed => exact printed outcome last ended.symm

theorem Ends.defined (ran : Ends ⟨.zero, tracing⟩ body m (some fault) after) :
    ¬fault.IsUndefined := by
  cases ran.stops with
  | evaluation _ failed =>
    obtain ⟨node, _, raises⟩ := eval_raises failed
    exact raises.defined
  | output =>
    rintro ⟨e, same, _⟩
    cases same

theorem output_extends (printed : m.printed.toList <+: after.printed.toList) :
    ∃ more, after.output = m.output ++ more := by
  obtain ⟨values, same⟩ := printed
  simp only [Machine.output, Machine.outputLines, ← same, List.map_append, String.join_append]
  exact ⟨_, rfl⟩

theorem zero_mode_conservative (tracing : Bool) (sink : Option Sink) (body : List Stmt)
    (store : Store) :
    let start : Machine := .start store sink
    (∀ outcome after, Ends ⟨.strict, tracing⟩ body start outcome after →
      (∀ fault, outcome = some fault → ¬fault.IsUndefined) →
        Ends ⟨.zero, tracing⟩ body start outcome after) ∧
    (∀ fault after outcome last, Ends ⟨.strict, tracing⟩ body start (some fault) after →
      fault.IsUndefined → Ends ⟨.zero, tracing⟩ body start outcome last →
        ∃ more, last.output = after.output ++ more) ∧
    ∀ fault last, Ends ⟨.zero, tracing⟩ body start (some fault) last → ¬fault.IsUndefined := by
  refine ⟨fun _ _ => Ends.lenient, ?_, fun _ _ => Ends.defined⟩
  intro fault after outcome last strict _ zero
  exact output_extends (strict.further zero)

def printsVariable : List Stmt :=
  let one : Expr := .number default (some 1)
  let x : Expr := .ident default "x"
  [.print default one, .print default x, .print default (.binary default "/" one x)]

-- With a zero in the variable both modes divide by it. Without one, strict mode prints the
-- first line only.
theorem zero_mode_conservative_variable :
    let zero : Store := .ofBindings [("x", 0)]
    let divided : Fault := .zeroDivisor default "division by zero"
    Ends ⟨.zero, false⟩ printsVariable (.start zero none) (some divided)
      ⟨zero, #[1, 0], #[], none⟩ ∧
    (∃ more, Machine.output ⟨.empty, #[1, 0], #[], none⟩ =
      Machine.output ⟨.empty, #[1], #[], none⟩ ++ more) ∧ ¬divided.IsUndefined := by
  intro zero divided
  have bound := zero_mode_conservative false none printsVariable zero
  have unbound := zero_mode_conservative false none printsVariable .empty
  have last : Ends ⟨.zero, false⟩ printsVariable (.start .empty none) (some divided)
      ⟨.empty, #[1, 0], #[], none⟩ := ⟨0, rfl⟩
  have apart := unbound.2.2 _ _ last
  refine ⟨bound.1 _ _ ⟨0, rfl⟩ ?_, ?_, apart⟩
  · intro fault same
    cases same
    exact apart
  · exact unbound.2.1 (.undefinedVariable default "x" .empty) ⟨.empty, #[1], #[], none⟩ _ _
      ⟨0, rfl⟩ ⟨_, rfl, rfl⟩ last

end Runs

end Minilang
