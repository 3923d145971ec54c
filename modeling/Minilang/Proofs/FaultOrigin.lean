import Minilang.Proofs.BigStep

namespace Minilang

def Expr.nodes : Expr → List Expr
  | missing => [missing]
  | number origin value => [number origin value]
  | ident origin name => [ident origin name]
  | unary origin operator operand => unary origin operator operand :: operand.nodes
  | binary origin operator left right =>
    binary origin operator left right :: (left.nodes ++ right.nodes)
  | assign origin target value => assign origin target value :: value.nodes

theorem Expr.mem_nodes (e : Expr) : e ∈ e.nodes := by
  cases e <;> simp [nodes]

inductive Raises (mode : UndefinedMode) (last : Store) : Expr → Fault → Prop where
  | missing : Raises mode last .missing (.internal none)
  | unbound (free : last.lookup? name = none) (strict : mode = .strict) :
      Raises mode last (.ident origin name) (.undefinedVariable origin name last)
  | sign (unknown : operator ≠ "-") :
      Raises mode last (.unary origin operator e) (.internal (some .unary))
  | division : Raises mode last (.binary origin "/" l r) (.zeroDivisor origin "division by zero")
  | modulo : Raises mode last (.binary origin "%" l r) (.zeroDivisor origin "modulo by zero")
  | operator (unknown : operator ∉ binaryOperators) :
      Raises mode last (.binary origin operator l r) (.internal (some .binary))
  | target : Raises mode last (.assign origin none e) (.internal (some .assign))

-- A failed evaluation has one node to blame, and binds nothing after it.
theorem Evaluates.raises (derived : Evaluates mode e c result d) (failed : result = .error fault) :
    ∃ node ∈ e.nodes, Raises mode d.store node fault := by
  induction derived with
  | number | valueless | bound | unboundZero | negation | operation | assignment => cases failed
  | missing =>
    cases failed
    exact ⟨_, Expr.mem_nodes _, .missing⟩
  | unbound free strict =>
    cases failed
    exact ⟨_, Expr.mem_nodes _, .unbound free strict⟩
  | unknownSign unknown =>
    cases failed
    exact ⟨_, Expr.mem_nodes _, .sign unknown⟩
  | divisionByZero =>
    cases failed
    exact ⟨_, Expr.mem_nodes _, .division⟩
  | moduloByZero =>
    cases failed
    exact ⟨_, Expr.mem_nodes _, .modulo⟩
  | unknownOperator _ _ unknown =>
    cases failed
    exact ⟨_, Expr.mem_nodes _, .operator unknown⟩
  | targetless =>
    cases failed
    exact ⟨_, Expr.mem_nodes _, .target⟩
  | operandFails _ ih | leftFails _ ih | rightFails _ _ _ ih | valueFails _ ih =>
    obtain ⟨node, member, raises⟩ := ih failed
    exact ⟨node, by simp [Expr.nodes, member], raises⟩

theorem eval_raises {e : Expr} (failed : e.eval mode s = (.error fault, last)) :
    ∃ node ∈ e.nodes, Raises mode last node fault :=
  (Evaluates.sound (c := ⟨s, ""⟩) failed).raises rfl

end Minilang
