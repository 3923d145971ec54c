import Minilang.Proofs.StoreEffect

namespace Minilang

-- Nothing is missing from the tree, and its operators belong to the language. A literal may
-- still lack its value, which then counts as zero.
def Expr.WellFormed : Expr → Prop
  | missing => False
  | number _ _ | ident _ _ => True
  | unary _ operator operand => operator = "-" ∧ operand.WellFormed
  | binary _ operator left right =>
    operator ∈ binaryOperators ∧ left.WellFormed ∧ right.WellFormed
  | assign _ target value => target ≠ none ∧ value.WellFormed

-- The integer that an expression stands for, if it stands for one. The rules know neither an
-- order of evaluation nor errors.
inductive Expr.HasValue (mode : UndefinedMode) (s : Store) : Expr → Int → Prop where
  | literal : HasValue mode s (.number origin (some value)) value
  | valueless : HasValue mode s (.number origin none) 0
  | bound (found : s.lookup? name = some value) : HasValue mode s (.ident origin name) value
  | unbound (free : s.lookup? name = none) (lenient : mode = .zero) :
      HasValue mode s (.ident origin name) 0
  | negation (operand : HasValue mode s e value) : HasValue mode s (.unary origin "-" e) (-value)
  | operation (first : HasValue mode s l a) (second : HasValue mode s r b)
      (computed : Computes operator a b value) : HasValue mode s (.binary origin operator l r) value

def Expr.Defined (mode : UndefinedMode) (s : Store) (e : Expr) : Prop := ∃ value, e.HasValue mode s value

def Expr.postOrder : Expr → List Expr
  | missing => [missing]
  | number origin value => [number origin value]
  | ident origin name => [ident origin name]
  | unary origin operator operand => operand.postOrder ++ [unary origin operator operand]
  | binary origin operator left right =>
    left.postOrder ++ right.postOrder ++ [binary origin operator left right]
  | assign origin target value => value.postOrder ++ [assign origin target value]

def FirstUndefined (mode : UndefinedMode) (s : Store) (es : List Expr) (node : Expr) : Prop :=
  ∃ before after, es = before ++ node :: after ∧ (∀ e ∈ before, e.Defined mode s) ∧
    ¬node.Defined mode s

inductive RuntimeError.Blames (mode : UndefinedMode) (s : Store) (error : RuntimeError) :
    Expr → Prop where
  | unbound (free : s.lookup? name = none) (strict : mode = .strict)
      (place : error.position = origin.position) (kind : error.kind = .undefinedVariable) :
      Blames mode s error (.ident origin name)
  | zeroDivisor (divides : operator = "/" ∨ operator = "%") (first : l.HasValue mode s a)
      (second : r.HasValue mode s 0)
      (place : error.position = origin.position) (kind : error.kind = .divisionByZero) :
      Blames mode s error (.binary origin operator l r)

section Values

variable {mode : UndefinedMode} {s : Store} {e node : Expr} {value other : Int} {operator : String}
  {error : RuntimeError} {es more : List Expr}

theorem Expr.HasValue.evaluates (has : e.HasValue mode s value) (output : String) :
    Evaluates mode e ⟨s, output⟩ (.ok value) ⟨s, output⟩ := by
  induction has with
  | literal => exact .number
  | valueless => exact .valueless
  | bound found => exact .bound found
  | unbound free lenient => exact .unboundZero free lenient
  | negation _ ih => exact .negation ih
  | operation _ _ computed first second => exact .operation first second computed

theorem Expr.HasValue.eval (has : e.HasValue mode s value) : e.eval mode s = (.ok value, s) :=
  (has.evaluates "").complete.1

theorem Expr.HasValue.unique (one : e.HasValue mode s value) (two : e.HasValue mode s other) :
    value = other := by
  have same := one.eval.symm.trans two.eval
  cases same
  rfl

theorem Expr.HasValue.parts (has : e.HasValue mode s value) :
    ∀ node ∈ e.postOrder, node.Defined mode s := by
  induction has with
  | literal => exact List.forall_mem_singleton.mpr ⟨_, .literal⟩
  | valueless => exact List.forall_mem_singleton.mpr ⟨_, .valueless⟩
  | bound found => exact List.forall_mem_singleton.mpr ⟨_, .bound found⟩
  | unbound free lenient => exact List.forall_mem_singleton.mpr ⟨_, .unbound free lenient⟩
  | negation operand ih =>
    exact List.forall_mem_append.mpr ⟨ih, List.forall_mem_singleton.mpr ⟨_, .negation operand⟩⟩
  | operation first second computed left right =>
    refine List.forall_mem_append.mpr ⟨List.forall_mem_append.mpr ⟨left, right⟩, ?_⟩
    exact List.forall_mem_singleton.mpr ⟨_, .operation first second computed⟩

theorem no_quotient (divides : operator = "/" ∨ operator = "%") (a v : Int) :
    ¬Computes operator a 0 v := by
  intro computed
  cases computed with
  | sum | difference | product => simp at divides
  | quotient division | remainder division => exact division.unique.1 rfl

theorem RuntimeError.Blames.undefined (blames : error.Blames mode s node) : ¬node.Defined mode s := by
  rintro ⟨value, has⟩
  cases blames with
  | unbound free strict =>
    cases has with
    | bound found => cases free.symm.trans found
    | unbound _ lenient => cases strict.symm.trans lenient
  | zeroDivisor divides _ zero =>
    cases has with
    | operation _ second computed =>
      cases second.unique zero
      exact no_quotient divides _ _ computed

namespace FirstUndefined

theorem before (first : FirstUndefined mode s es node) (more : List Expr) :
    FirstUndefined mode s (es ++ more) node := by
  obtain ⟨before, after, rfl, defined, undefined⟩ := first
  exact ⟨before, after ++ more, by simp, defined, undefined⟩

theorem behind (defined : ∀ e ∈ es, e.Defined mode s) (first : FirstUndefined mode s more node) :
    FirstUndefined mode s (es ++ more) node := by
  obtain ⟨before, after, rfl, earlier, undefined⟩ := first
  refine ⟨es ++ before, after, by simp, ?_, undefined⟩
  exact List.forall_mem_append.mpr ⟨defined, earlier⟩

theorem last (defined : ∀ e ∈ es, e.Defined mode s) (undefined : ¬node.Defined mode s) :
    FirstUndefined mode s (es ++ [node]) node :=
  ⟨es, [], rfl, defined, undefined⟩

end FirstUndefined

def Expr.Settled (mode : UndefinedMode) (s : Store) (e : Expr) : Except Fault Int → Prop
  | .ok value => e.HasValue mode s value
  | .error fault => ∃ node error, fault = .runtime error ∧
      FirstUndefined mode s e.postOrder node ∧ error.Blames mode s node

theorem RuntimeError.Blames.settled (blames : error.Blames mode s e) (es : List Expr)
    (whole : e.postOrder = es ++ [e]) (defined : ∀ node ∈ es, node.Defined mode s) :
    e.Settled mode s (.error (.runtime error)) := by
  refine ⟨e, error, rfl, ?_, blames⟩
  rw [whole]
  exact .last defined blames.undefined

theorem Evaluates.settled {c d : Configuration} {result : Except Fault Int}
    (derived : Evaluates mode e c result d) (formed : e.WellFormed) (unassigned : e.targets = []) :
    e.Settled mode c.store result := by
  induction derived with
  | missing => exact absurd formed id
  | number => exact .literal
  | valueless => exact .valueless
  | bound found => exact .bound found
  | unboundZero free lenient => exact .unbound free lenient
  | unbound free strict =>
    refine RuntimeError.Blames.settled ?_ [] rfl (List.forall_mem_nil _)
    exact .unbound free strict rfl rfl
  | negation _ ih => exact .negation (ih formed.2 unassigned)
  | operandFails _ ih =>
    obtain ⟨node, error, same, first, blames⟩ := ih formed.2 unassigned
    exact ⟨node, error, same, first.before _, blames⟩
  | unknownSign unknown => exact absurd formed.1 unknown
  | unknownOperator _ _ unknown => exact absurd formed.1 unknown
  | operation one two computed first second =>
    obtain ⟨left, right⟩ := List.append_eq_nil_iff.mp unassigned
    -- The left operand has bound nothing, so the right one is read in the same store.
    cases one.untargeted left
    exact .operation (first formed.2.1 left) (second formed.2.2 right) computed
  | divisionByZero one two first second | moduloByZero one two first second =>
    obtain ⟨left, right⟩ := List.append_eq_nil_iff.mp unassigned
    cases one.untargeted left
    have dividend : Expr.HasValue _ _ _ _ := first formed.2.1 left
    have divisor : Expr.HasValue _ _ _ 0 := second formed.2.2 right
    have defined := List.forall_mem_append.mpr ⟨dividend.parts, divisor.parts⟩
    refine RuntimeError.Blames.settled ?_ _ rfl defined
    exact .zeroDivisor (by simp) dividend divisor rfl rfl
  | leftFails _ ih =>
    obtain ⟨node, error, same, first, blames⟩ := ih formed.2.1 (List.append_eq_nil_iff.mp unassigned).1
    exact ⟨node, error, same, (first.before _).before _, blames⟩
  | rightFails one _ first second =>
    obtain ⟨left, right⟩ := List.append_eq_nil_iff.mp unassigned
    cases one.untargeted left
    have operand : Expr.HasValue _ _ _ _ := first formed.2.1 left
    obtain ⟨node, error, same, later, blames⟩ := second formed.2.2 right
    exact ⟨node, error, same, (later.behind operand.parts).before _, blames⟩
  | assignment | valueFails => cases unassigned
  | targetless => exact absurd rfl formed.1

theorem evaluation_exact (mode : UndefinedMode) (s : Store) (e : Expr) (formed : e.WellFormed)
    (unassigned : e.targets = []) :
    (∀ value, (e.eval mode s).1 = .ok value ↔ e.HasValue mode s value) ∧
    (¬e.Defined mode s → ∃ node error, (e.eval mode s).1 = .error (.runtime error) ∧
      FirstUndefined mode s e.postOrder node ∧ error.Blames mode s node) ∧
    (e.eval mode s).2 = s := by
  have derived : Evaluates mode e ⟨s, ""⟩ (e.eval mode s).1 ⟨(e.eval mode s).2, ""⟩ :=
    Evaluates.sound rfl
  have settled := derived.settled formed unassigned
  refine ⟨?_, ?_, congrArg Configuration.store (derived.untargeted unassigned)⟩
  · intro value
    constructor
    · intro found
      rw [found] at settled
      exact settled
    · intro has
      rw [has.eval]
  · intro undefined
    generalize (e.eval mode s).1 = result at settled ⊢
    cases result with
    | ok value => exact absurd ⟨value, settled⟩ undefined
    | error fault =>
      obtain ⟨node, error, rfl, first, blames⟩ := settled
      exact ⟨node, error, rfl, first, blames⟩

theorem evaluation_exact_remainder :
    let token (column : Int) : Token := ⟨⟨0, column⟩, .operator, "", none⟩
    let sum : Expr := .binary (token 7) "+"
      (.binary (token 3) "%" (.unary (token 0) "-" (.number (token 1) (some 7))) (.ident (token 5) "y"))
      (.ident (token 9) "x")
    let zero : Store := .ofBindings [("y", 0)]
    sum.HasValue .strict (.ofBindings [("x", 5), ("y", -2)]) 4 ∧
    (∃ node, FirstUndefined .strict zero sum.postOrder node ∧
      RuntimeError.Blames .strict zero ⟨⟨0, 3⟩, .divisionByZero, "modulo by zero", ""⟩ node) ∧
    (sum.eval .strict zero).2 = zero := by
  intro token sum zero
  have formed : sum.WellFormed := by
    simp [sum, Expr.WellFormed, binaryOperators]
  have found := (evaluation_exact .strict (.ofBindings [("x", 5), ("y", -2)]) sum formed rfl).1 4
  obtain ⟨values, fails, kept⟩ := evaluation_exact .strict zero sum formed rfl
  refine ⟨found.mp rfl, ?_, kept⟩
  have undefined : ¬sum.Defined .strict zero := by
    rintro ⟨value, has⟩
    cases (values value).mpr has
  obtain ⟨node, error, failed, first, blames⟩ := fails undefined
  cases failed
  exact ⟨node, first, blames⟩

end Values

end Minilang
