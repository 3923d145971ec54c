import Minilang.Proofs.ReadableTree
import Minilang.Run.Evaluation

namespace Minilang

-- The rules of evaluation, apart from the functions that follow them. Division goes toward
-- zero: the remainder is smaller than the divisor and takes the sign of the dividend.
structure Integer.Divides (a b quotient remainder : Int) : Prop where
  whole : a = quotient * b + remainder
  small : remainder.natAbs < b.natAbs
  sign : remainder = 0 ∨ remainder.sign = a.sign

inductive Computes : String → Int → Int → Int → Prop where
  | sum : Computes "+" a b (a + b)
  | difference : Computes "-" a b (a - b)
  | product : Computes "*" a b (a * b)
  | quotient (division : Integer.Divides a b q r) : Computes "/" a b q
  | remainder (division : Integer.Divides a b q r) : Computes "%" a b r

@[ext]
structure Configuration where
  store : Store
  output : String

namespace Configuration

def bind (c : Configuration) (name : String) (value : Int) : Configuration :=
  { c with store := c.store.define name value }

def print (c : Configuration) (value : Int) : Configuration :=
  { c with output := c.output ++ (decimal value ++ "\n") }

end Configuration

inductive Evaluates (mode : UndefinedMode) :
    Expr → Configuration → Except Fault Int → Configuration → Prop where
  | missing : Evaluates mode .missing c (.error (.internal none)) c
  | number : Evaluates mode (.number origin (some value)) c (.ok value) c
  | valueless : Evaluates mode (.number origin none) c (.ok 0) c
  | bound (found : c.store.lookup? name = some value) :
      Evaluates mode (.ident origin name) c (.ok value) c
  | unboundZero (unbound : c.store.lookup? name = none) (lenient : mode = .zero) :
      Evaluates mode (.ident origin name) c (.ok 0) c
  | unbound (unbound : c.store.lookup? name = none) (strict : mode = .strict) :
      Evaluates mode (.ident origin name) c (.error (.undefinedVariable origin name c.store)) c
  | negation (operand : Evaluates mode e c (.ok value) d) :
      Evaluates mode (.unary origin "-" e) c (.ok (-value)) d
  | operandFails (operand : Evaluates mode e c (.error fault) d) :
      Evaluates mode (.unary origin "-" e) c (.error fault) d
  | unknownSign (unknown : operator ≠ "-") :
      Evaluates mode (.unary origin operator e) c (.error (.internal (some .unary))) c
  | operation (first : Evaluates mode l c (.ok a) d) (second : Evaluates mode r d (.ok b) f)
      (computed : Computes operator a b value) :
      Evaluates mode (.binary origin operator l r) c (.ok value) f
  | divisionByZero (first : Evaluates mode l c (.ok a) d) (second : Evaluates mode r d (.ok 0) f) :
      Evaluates mode (.binary origin "/" l r) c (.error (.zeroDivisor origin "division by zero")) f
  | moduloByZero (first : Evaluates mode l c (.ok a) d) (second : Evaluates mode r d (.ok 0) f) :
      Evaluates mode (.binary origin "%" l r) c (.error (.zeroDivisor origin "modulo by zero")) f
  | unknownOperator (first : Evaluates mode l c (.ok a) d) (second : Evaluates mode r d (.ok b) f)
      (unknown : operator ∉ binaryOperators) :
      Evaluates mode (.binary origin operator l r) c (.error (.internal (some .binary))) f
  | leftFails (first : Evaluates mode l c (.error fault) d) :
      Evaluates mode (.binary origin operator l r) c (.error fault) d
  | rightFails (first : Evaluates mode l c (.ok a) d)
      (second : Evaluates mode r d (.error fault) f) :
      Evaluates mode (.binary origin operator l r) c (.error fault) f
  | assignment (value : Evaluates mode e c (.ok v) d) :
      Evaluates mode (.assign origin (some target) e) c (.ok v) (d.bind target.name v)
  | valueFails (value : Evaluates mode e c (.error fault) d) :
      Evaluates mode (.assign origin (some target) e) c (.error fault) d
  | targetless : Evaluates mode (.assign origin none e) c (.error (.internal (some .assign))) c

-- A statement ends with the fault that stopped it, or with none. After a fault nothing runs.
mutual
inductive Runs (mode : UndefinedMode) :
    Stmt → Configuration → Option Fault → Configuration → Prop where
  | expression (value : Evaluates mode e c (.ok v) d) : Runs mode (.expr e) c none d
  | expressionFails (failed : Evaluates mode e c (.error fault) d) :
      Runs mode (.expr e) c (some fault) d
  | skipped (guard : Evaluates mode e c (.ok 0) d) : Runs mode (.branch origin e body) c none d
  | taken (guard : Evaluates mode e c (.ok v) d) (holds : v ≠ 0)
      (inside : RunsAll mode body d outcome f) : Runs mode (.branch origin e body) c outcome f
  | branchFails (guard : Evaluates mode e c (.error fault) d) :
      Runs mode (.branch origin e body) c (some fault) d
  | left (guard : Evaluates mode e c (.ok 0) d) : Runs mode (.loop origin e body) c none d
  | round (guard : Evaluates mode e c (.ok v) d) (holds : v ≠ 0)
      (inside : RunsAll mode body d none f) (again : Runs mode (.loop origin e body) f outcome g) :
      Runs mode (.loop origin e body) c outcome g
  | roundFails (guard : Evaluates mode e c (.ok v) d) (holds : v ≠ 0)
      (inside : RunsAll mode body d (some fault) f) :
      Runs mode (.loop origin e body) c (some fault) f
  | loopFails (guard : Evaluates mode e c (.error fault) d) :
      Runs mode (.loop origin e body) c (some fault) d
  | printed (value : Evaluates mode e c (.ok v) d) :
      Runs mode (.print origin e) c none (d.print v)
  | printFails (failed : Evaluates mode e c (.error fault) d) :
      Runs mode (.print origin e) c (some fault) d

inductive RunsAll (mode : UndefinedMode) :
    List Stmt → Configuration → Option Fault → Configuration → Prop where
  | nil : RunsAll mode [] c none c
  | cons (first : Runs mode s c none d) (later : RunsAll mode body d outcome f) :
      RunsAll mode (s :: body) c outcome f
  | stop (first : Runs mode s c (some fault) d) : RunsAll mode (s :: body) c (some fault) d
end

section Arithmetic

variable {a b q r v : Int} {op : String} {origin : Token}

theorem tmod_sign : a.tmod b = 0 ∨ (a.tmod b).sign = a.sign := by
  rcases Int.lt_trichotomy a 0 with below | rfl | above
  · have least := Int.tmod_nonneg b (show 0 ≤ -a by omega)
    rw [Int.neg_tmod] at least
    by_cases zero : a.tmod b = 0
    · exact .inl zero
    · right
      rw [Int.sign_eq_neg_one_of_neg below, Int.sign_eq_neg_one_of_neg (by omega)]
  · exact .inl (Int.zero_tmod b)
  · have least := Int.tmod_nonneg b (Int.le_of_lt above)
    by_cases zero : a.tmod b = 0
    · exact .inl zero
    · right
      rw [Int.sign_eq_one_of_pos above, Int.sign_eq_one_of_pos (by omega)]

theorem divides_tdiv (nonzero : b ≠ 0) : Integer.Divides a b (a.tdiv b) (a.tmod b) where
  whole := (Int.tdiv_mul_add_tmod a b).symm
  small := by
    rw [Int.natAbs_tmod]
    exact Nat.mod_lt _ (Int.natAbs_pos.mpr nonzero)
  sign := tmod_sign

theorem Integer.Divides.unique (division : Integer.Divides a b q r) :
    b ≠ 0 ∧ a.tdiv b = q ∧ a.tmod b = r := by
  obtain ⟨whole, small, sign⟩ := division
  have nonzero : b ≠ 0 := by omega
  have parts : r + b * q = a := by rw [whole, Int.mul_comm q b, Int.add_comm]
  refine ⟨nonzero, ?_⟩
  rcases Int.le_total 0 a with above | below
  · have least : 0 ≤ r := by
      rcases sign with zero | same
      · omega
      · exact Int.sign_nonneg_iff.mp (same ▸ Int.sign_nonneg_iff.mpr above)
    exact (Int.tdiv_tmod_unique above nonzero).mpr ⟨parts, least, by omega⟩
  · have most : r ≤ 0 := by
      rcases sign with zero | same
      · omega
      · exact Int.sign_nonpos_iff.mp (same ▸ Int.sign_nonpos_iff.mpr below)
    exact (Int.tdiv_tmod_unique' below nonzero).mpr ⟨parts, by omega, most⟩

theorem applyOperator_computes (computed : Computes op a b v) :
    applyOperator origin op a b = .ok v := by
  cases computed with
  | sum => rfl
  | difference => rfl
  | product => rfl
  | quotient division =>
    obtain ⟨nonzero, rfl, _⟩ := division.unique
    simp [applyOperator, Integer.quotient?, nonzero]
  | remainder division =>
    obtain ⟨nonzero, _, rfl⟩ := division.unique
    simp [applyOperator, Integer.remainder?, nonzero]

theorem applyOperator_unknown (unknown : op ∉ binaryOperators) :
    applyOperator origin op a b = .error (.internal (some .binary)) := by
  simp only [binaryOperators, List.mem_cons, List.not_mem_nil, or_false, not_or] at unknown
  simp [applyOperator, unknown]

end Arithmetic

section Evaluation

variable {mode : UndefinedMode} {e l r : Expr} {c d : Configuration} {result : Except Fault Int}

theorem Evaluates.complete (derived : Evaluates mode e c result d) :
    e.eval mode c.store = (result, d.store) ∧ d.output = c.output := by
  induction derived with
  | missing | number | valueless | targetless => exact ⟨rfl, rfl⟩
  | bound found => simp [Expr.eval, found]
  | unboundZero unbound lenient => simp [Expr.eval, unbound, lenient]
  | unbound unbound strict => simp [Expr.eval, unbound, strict]
  | negation _ ih => simp [Expr.eval, ih]
  | operandFails _ ih => simp [Expr.eval, ih]
  | unknownSign unknown => simp [Expr.eval, unknown]
  | operation _ _ computed first second =>
    simp [Expr.eval, first, second, applyOperator_computes computed]
  | divisionByZero _ _ first second | moduloByZero _ _ first second =>
    simp [Expr.eval, first, second, applyOperator, Integer.quotient?, Integer.remainder?]
  | unknownOperator _ _ unknown first second =>
    simp [Expr.eval, first, second, applyOperator_unknown unknown]
  | leftFails _ ih => simp [Expr.eval, ih]
  | rightFails _ _ first second => simp [Expr.eval, first, second]
  | assignment _ ih => simp [Expr.eval, ih, Configuration.bind]
  | valueFails _ ih => simp [Expr.eval, ih]

theorem applied (origin : Token) (operator : String) (first : Evaluates mode l c (.ok a) d)
    (second : Evaluates mode r d (.ok b) f) :
    Evaluates mode (.binary origin operator l r) c (applyOperator origin operator a b) f := by
  by_cases known : operator ∈ binaryOperators
  · simp only [binaryOperators, List.mem_cons, List.not_mem_nil, or_false] at known
    rcases known with rfl | rfl | rfl | rfl | rfl
    · exact .operation first second .sum
    · exact .operation first second .difference
    · exact .operation first second .product
    · by_cases zero : b = 0
      · subst zero
        exact .divisionByZero first second
      · have computed : Computes "/" a b (a.tdiv b) := .quotient (divides_tdiv zero)
        rw [applyOperator_computes computed]
        exact .operation first second computed
    · by_cases zero : b = 0
      · subst zero
        exact .moduloByZero first second
      · have computed : Computes "%" a b (a.tmod b) := .remainder (divides_tdiv zero)
        rw [applyOperator_computes computed]
        exact .operation first second computed
  · rw [applyOperator_unknown known]
    exact .unknownOperator first second known

theorem Evaluates.sound (found : e.eval mode c.store = (result, store)) :
    Evaluates mode e c result { c with store := store } := by
  induction e generalizing c result store with
  | missing =>
    cases found
    exact .missing
  | number origin value =>
    cases found
    cases value with
    | none => exact .valueless
    | some value => exact .number
  | ident origin name =>
    unfold Expr.eval at found
    cases known : c.store.lookup? name with
    | some value =>
      rw [known] at found
      cases found
      exact .bound known
    | none =>
      rw [known] at found
      cases mode with
      | zero =>
        cases found
        exact .unboundZero known rfl
      | strict =>
        cases found
        exact .unbound known rfl
  | unary origin operator operand ih =>
    rw [Expr.eval] at found
    by_cases sign : operator = "-"
    · subst sign
      rw [if_pos rfl] at found
      rcases inner : operand.eval mode c.store with ⟨fault | value, after⟩
      · rw [inner] at found
        cases found
        exact .operandFails (ih inner)
      · rw [inner] at found
        cases found
        exact .negation (ih inner)
    · rw [if_neg sign] at found
      cases found
      exact .unknownSign sign
  | binary origin operator left right first second =>
    rw [Expr.eval] at found
    rcases one : left.eval mode c.store with ⟨fault | a, after⟩
    · rw [one] at found
      cases found
      exact .leftFails (first one)
    · rw [one] at found
      dsimp only at found
      rcases two : right.eval mode after with ⟨fault | b, last⟩
      · rw [two] at found
        cases found
        exact .rightFails (first one) (second two)
      · rw [two] at found
        cases found
        exact applied origin operator (first one) (second two)
  | assign origin target value ih =>
    cases target with
    | none =>
      cases found
      exact .targetless
    | some target =>
      rw [Expr.eval] at found
      rcases inner : value.eval mode c.store with ⟨fault | v, after⟩
      · rw [inner] at found
        cases found
        exact .valueFails (ih inner)
      · rw [inner] at found
        cases found
        exact .assignment (ih inner)

end Evaluation

end Minilang
