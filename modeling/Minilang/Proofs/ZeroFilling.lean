import Minilang.Proofs.Lockstep
import Minilang.Proofs.StoreLookup

namespace Minilang

def Expr.names : Expr → List String
  | missing => []
  | number _ _ => []
  | ident _ name => [name]
  | unary _ _ operand => operand.names
  | binary _ _ left right => left.names ++ right.names
  | assign _ target value => (target.map (·.name)).toList ++ value.names

def Stmt.allNames (body : List Stmt) : List String :=
  (Stmt.allExpressions body).flatMap Expr.names

-- The second store binds all the names, and apart from that reads as the first one does.
structure Store.FilledTo (names : List String) (s t : Store) : Prop where
  reads : ∀ name, s.read name = t.read name
  binds : ∀ name ∈ names, t.lookup? name = some (t.read name)

namespace Store

variable {names : List String} {s t : Store} {name : String}

theorem zeroFilled_filledTo (names : List String) (s : Store) :
    s.FilledTo names (s.zeroFilled names) := by
  have same (name : String) : (s.zeroFilled names).read name = s.read name := by
    rw [read, lookup?_zeroFilled]
    split <;> rfl
  refine ⟨fun name => (same name).symm, fun name member => ?_⟩
  rw [same, lookup?_zeroFilled, if_pos member]

theorem FilledTo.define (filled : s.FilledTo names t) (name : String) (value : Int) :
    (s.define name value).FilledTo names (t.define name value) := by
  refine ⟨fun other => ?_, fun other member => ?_⟩
  · simp [filled.reads]
  · have bound := filled.binds other member
    grind

theorem FilledTo.eval_ident (filled : s.FilledTo names t) (origin : Token) (member : name ∈ names) :
    Expr.eval .zero (.ident origin name) s = (.ok (t.read name), s) ∧
      Expr.eval .strict (.ident origin name) t = (.ok (t.read name), t) := by
  constructor
  · rw [← filled.reads, read]
    unfold Expr.eval
    cases s.lookup? name <;> rfl
  · unfold Expr.eval
    simp only [filled.binds name member]

theorem FilledTo.eval {e : Expr} (filled : s.FilledTo names t)
    (listed : ∀ name ∈ e.names, name ∈ names) : ∃ result u v,
      e.eval .zero s = (result, u) ∧ e.eval .strict t = (result, v) ∧ u.FilledTo names v := by
  induction e generalizing s t with
  | missing => exact ⟨_, s, t, rfl, rfl, filled⟩
  | number => exact ⟨_, s, t, rfl, rfl, filled⟩
  | ident origin name =>
    obtain ⟨here, there⟩ := filled.eval_ident origin (listed name (by simp [Expr.names]))
    exact ⟨_, s, t, here, there, filled⟩
  | unary origin operator operand ih =>
    unfold Expr.eval
    split
    · obtain ⟨result, u, v, here, there, kept⟩ := ih filled listed
      rw [here, there]
      cases result with
      | error fault => exact ⟨_, u, v, rfl, rfl, kept⟩
      | ok value => exact ⟨_, u, v, rfl, rfl, kept⟩
    · exact ⟨_, s, t, rfl, rfl, filled⟩
  | binary origin operator left right first second =>
    obtain ⟨inLeft, inRight⟩ := List.forall_mem_append.mp listed
    obtain ⟨result, u, v, here, there, kept⟩ := first filled inLeft
    unfold Expr.eval
    rw [here, there]
    cases result with
    | error fault => exact ⟨_, u, v, rfl, rfl, kept⟩
    | ok a =>
      obtain ⟨result, w, x, after, behind, kept⟩ := second kept inRight
      dsimp only
      rw [after, behind]
      cases result with
      | error fault => exact ⟨_, w, x, rfl, rfl, kept⟩
      | ok b => exact ⟨_, w, x, rfl, rfl, kept⟩
  | assign origin target value ih =>
    cases target with
    | none => exact ⟨_, s, t, rfl, rfl, filled⟩
    | some target =>
      obtain ⟨result, u, v, here, there, kept⟩ := ih filled (List.forall_mem_append.mp listed).2
      unfold Expr.eval
      rw [here, there]
      cases result with
      | error fault => exact ⟨_, u, v, rfl, rfl, kept⟩
      | ok a => exact ⟨_, _, _, rfl, rfl, kept.define target.name a⟩

end Store

def Machine.FilledTo (names : List String) (m k : Machine) : Prop :=
  ∃ t, k = { m with store := t } ∧ m.store.FilledTo names t

section Runs

variable {names : List String} {es : List Expr} {m k : Machine}

theorem Machine.FilledTo.print (related : m.FilledTo names k) (value : Int) :
    PrintsAlike (FilledTo names) (m.print value) (k.print value) := by
  obtain ⟨t, rfl, filled⟩ := related
  unfold Machine.print
  dsimp only
  split
  · exact .taken ⟨t, rfl, filled⟩
  · exact .refused
  · exact .taken ⟨t, rfl, filled⟩

theorem Machine.FilledTo.enter (related : m.FilledTo names k) {one two : RunOptions}
    (same : one.tracing = two.tracing) (s : Stmt) : (m.enter one s).FilledTo names (k.enter two s) := by
  obtain ⟨t, rfl, filled⟩ := related
  unfold Machine.enter Machine.record
  rw [same]
  split
  · split <;> exact ⟨t, rfl, filled⟩
  · exact ⟨t, rfl, filled⟩

theorem filled_lockstep (tracing : Bool) (listed : ∀ e ∈ es, ∀ name ∈ e.names, name ∈ names) :
    Lockstep ⟨.zero, tracing⟩ ⟨.strict, tracing⟩ es (Machine.FilledTo names) where
  evaluate member related := by
    obtain ⟨t, rfl, filled⟩ := related
    obtain ⟨result, u, v, here, there, kept⟩ := filled.eval (listed _ member)
    exact ⟨result, u, v, here, there, v, rfl, kept⟩
  print value related := related.print value
  enter s related := related.enter rfl s

theorem program_lockstep (tracing : Bool) (body : List Stmt) :
    Lockstep ⟨.zero, tracing⟩ ⟨.strict, tracing⟩ (Stmt.allExpressions body)
      (Machine.FilledTo (Stmt.allNames body)) := by
  refine filled_lockstep tracing fun e member name inside => ?_
  exact List.mem_flatMap.mpr ⟨e, member, inside⟩

end Runs

theorem zero_mode_fills (tracing : Bool) (sink : Option Sink) (body : List Stmt) (store : Store) :
    let zero := Ends ⟨.zero, tracing⟩ body (.start store sink)
    let strict := Ends ⟨.strict, tracing⟩ body
      (.start (store.zeroFilled (Stmt.allNames body)) sink)
    ((∃ outcome after, zero outcome after) ↔ ∃ outcome after, strict outcome after) ∧
    ∀ outcome after other last, zero outcome after → strict other last →
      outcome = other ∧ after.output = last.output ∧
        ∀ name, after.store.read name = last.store.read name := by
  intro zero strict
  have steps := program_lockstep tracing body
  have start : Machine.FilledTo (Stmt.allNames body) (.start store sink)
      (.start (store.zeroFilled (Stmt.allNames body)) sink) :=
    ⟨_, rfl, Store.zeroFilled_filledTo _ store⟩
  refine ⟨⟨?_, ?_⟩, ?_⟩
  · rintro ⟨outcome, after, ran⟩
    obtain ⟨last, ends, _⟩ := steps.ends start ran
    exact ⟨outcome, last, ends⟩
  · rintro ⟨outcome, last, ran⟩
    obtain ⟨after, ends, _⟩ := steps.symm.ends start ran
    exact ⟨outcome, after, ends⟩
  · intro outcome after other last first second
    obtain ⟨again, ends, t, rfl, filled⟩ := steps.ends start first
    obtain ⟨rfl, rfl⟩ := ends.unique second
    exact ⟨rfl, rfl, filled.reads⟩

def readsUnbound : List Stmt :=
  let assigned (name : String) : Expr → Expr := .assign default (some ⟨default, name⟩)
  [.branch default (.ident default "c") [.expr (assigned "d" (.number default (some 1)))],
    .expr (assigned "b" (.ident default "a")),
    .print default (.ident default "b"),
    .expr (.binary default "/" (.number default (some 1)) (.ident default "a"))]

theorem zero_mode_fills_unbound :
    let divided : Fault := .zeroDivisor default "division by zero"
    let after : Machine := ⟨.ofBindings [("b", 0)], #[0], #[], none⟩
    Ends ⟨.zero, false⟩ readsUnbound (.start .empty none) (some divided) after ∧
    ∃ last : Machine, Ends ⟨.strict, false⟩ readsUnbound
      (.start (.zeroFilled .empty ["c", "d", "b", "a", "b", "a"]) none) (some divided) last ∧
      last.output = "0\n" ∧ ∀ name, after.store.read name = last.store.read name := by
  intro divided after
  have ran : Ends ⟨.zero, false⟩ readsUnbound (.start .empty none) (some divided) after :=
    ⟨0, rfl⟩
  obtain ⟨both, same⟩ := zero_mode_fills false none readsUnbound .empty
  obtain ⟨outcome, last, strict⟩ := both.mp ⟨_, _, ran⟩
  obtain ⟨rfl, output, reads⟩ := same _ _ _ _ ran strict
  exact ⟨ran, last, strict, output.symm, reads⟩

end Minilang
