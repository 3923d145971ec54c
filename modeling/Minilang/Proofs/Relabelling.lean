import Minilang.Parse.Program
import Minilang.Proofs.Token

namespace Minilang

-- Changing the places of tokens, or any of what their faces do not show. Readers look at
-- faces only, so the change goes through them.
def Token.KeepsFace (g : Token → Token) : Prop := ∀ t, (g t).face = t.face

namespace Token.KeepsFace

variable {g : Token → Token}

theorem kind (keeps : KeepsFace g) (t : Token) : (g t).kind = t.kind := congrArg (·.1) (keeps t)

theorem lexeme (keeps : KeepsFace g) (t : Token) : (g t).lexeme = t.lexeme :=
  congrArg (·.2.1) (keeps t)

theorem value (keeps : KeepsFace g) (t : Token) : (g t).value = t.value := congrArg (·.2.2) (keeps t)

theorem is (keeps : KeepsFace g) (t : Token) (wanted : TokenKind) (text : String) :
    (g t).is wanted text = t.is wanted text := by
  rw [Token.is, keeps.kind, keeps.lexeme, Token.is]

end Token.KeepsFace

def Token.bare (t : Token) : Token := { t with position := .origin }

theorem Token.bare_keeps : KeepsFace bare := fun _ => rfl

theorem Token.bare_faces {tokens ts : List Token} (faces : tokens.map face = ts.map face) :
    tokens.map bare = ts.map bare := by
  have through : bare = (fun shown => ⟨.origin, shown.1, shown.2.1, shown.2.2⟩) ∘ face := rfl
  rw [through, ← List.map_map, faces, List.map_map]

def Expr.relabel (g : Token → Token) : Expr → Expr
  | missing => missing
  | number origin value => number (g origin) value
  | ident origin name => ident (g origin) name
  | unary origin operator operand => unary (g origin) operator (operand.relabel g)
  | binary origin operator left right =>
    binary (g origin) operator (left.relabel g) (right.relabel g)
  | assign origin target value =>
    assign (g origin) (target.map fun found => ⟨g found.origin, found.name⟩) (value.relabel g)

mutual
def Stmt.relabel (g : Token → Token) : Stmt → Stmt
  | .expr e => .expr (e.relabel g)
  | .branch origin condition body =>
    .branch (g origin) (condition.relabel g) (Stmt.relabelAll g body)
  | .loop origin condition body => .loop (g origin) (condition.relabel g) (Stmt.relabelAll g body)
  | .print origin e => .print (g origin) (e.relabel g)

def Stmt.relabelAll (g : Token → Token) : List Stmt → List Stmt
  | [] => []
  | s :: ss => s.relabel g :: Stmt.relabelAll g ss
end

def Expr.erase : Expr → Expr := Expr.relabel fun _ => default

def Stmt.erase : Stmt → Stmt := Stmt.relabel fun _ => default

def Stmt.eraseAll : List Stmt → List Stmt := Stmt.relabelAll fun _ => default

section Composition

variable {g h : Token → Token}

@[simp]
theorem Expr.relabel_relabel (e : Expr) : (e.relabel g).relabel h = e.relabel (h ∘ g) := by
  induction e with
  | missing | number | ident => rfl
  | unary origin operator operand ih => simp [relabel, ih]
  | binary origin operator left right first second => simp [relabel, first, second]
  | assign origin target value ih => cases target <;> simp [relabel, ih]

mutual
@[simp]
theorem Stmt.relabel_relabel : ∀ s : Stmt, (s.relabel g).relabel h = s.relabel (h ∘ g)
  | .expr e => by simp [Stmt.relabel]
  | .branch _ c body => by simp [Stmt.relabel, Stmt.relabelAll_relabelAll body]
  | .loop _ c body => by simp [Stmt.relabel, Stmt.relabelAll_relabelAll body]
  | .print _ e => by simp [Stmt.relabel]

@[simp]
theorem Stmt.relabelAll_relabelAll :
    ∀ body, Stmt.relabelAll h (Stmt.relabelAll g body) = Stmt.relabelAll (h ∘ g) body
  | [] => rfl
  | s :: body => by simp [Stmt.relabelAll, Stmt.relabel_relabel s, Stmt.relabelAll_relabelAll body]
end

end Composition

namespace Reading

variable {α β : Type} {g : Token → Token}

def relabel (g : Token → Token) (f : α → α) : Reading α → Reading α
  | ok value rest => ok (f value) (rest.map g)
  | stuck expected rest => stuck expected (rest.map g)

def Relabels (g : Token → Token) (f : α → α) (reader : List Token → Reading α) : Prop :=
  ∀ ts, reader (ts.map g) = (reader ts).relabel g f

theorem andThen_relabel {f : α → α} {h : β → β} {first again : Reading α}
    {next other : α → List Token → Reading β} (same : again = first.relabel g f)
    (later : ∀ x rest, other (f x) (rest.map g) = (next x rest).relabel g h) :
    again.andThen other = (first.andThen next).relabel g h := by
  subst same
  cases first with
  | ok x rest => exact later x rest
  | stuck expected rest => rfl

theorem map_relabel {f : α → α} {h : β → β} {first again : Reading α} {k l : α → β}
    (same : again = first.relabel g f) (later : ∀ x, l (f x) = h (k x)) :
    again.map l = (first.map k).relabel g h := by
  refine andThen_relabel same fun x rest => ?_
  simp [relabel, later]

theorem eat_relabel (keeps : Token.KeepsFace g) (kind : TokenKind) (lexeme : String) :
    Relabels g g (eat kind lexeme) := by
  intro ts
  cases ts with
  | nil => rfl
  | cons t rest =>
    rw [List.map_cons, eat, eat, keeps.is]
    split <;> rfl

end Reading

namespace Parse

open Reading

variable {g : Token → Token} {inner operand : List Token → Reading Expr}
  {one : List Token → Reading Stmt}

theorem chain_relabel (keeps : Token.KeepsFace g) (ops : List String)
    (operands : Relabels g (Expr.relabel g) operand) (n : Nat) (left : Expr) (ts : List Token) :
    chain ops operand n (left.relabel g) (ts.map g) =
      (chain ops operand n left ts).relabel g (Expr.relabel g) := by
  induction n generalizing left ts with
  | zero => rfl
  | succ n ih =>
    cases ts with
    | nil => rfl
    | cons t rest =>
      rw [List.map_cons, chain, chain, keeps.kind, keeps.lexeme]
      split
      · refine andThen_relabel (operands rest) fun right after => ?_
        exact ih (.binary t t.lexeme left right) after
      · rfl

theorem level_relabel (keeps : Token.KeepsFace g) (ops : List String)
    (operands : Relabels g (Expr.relabel g) operand) :
    Relabels g (Expr.relabel g) (level ops operand) := by
  intro ts
  refine andThen_relabel (operands ts) fun left rest => ?_
  rw [List.length_map]
  exact chain_relabel keeps ops operands rest.length left rest

theorem term_relabel (keeps : Token.KeepsFace g) (inside : Relabels g (Expr.relabel g) inner) :
    Relabels g (Expr.relabel g) (term inner) := by
  intro ts
  cases ts with
  | nil => rfl
  | cons t rest =>
    rw [List.map_cons, term, term, keeps.is, keeps.kind, keeps.value, keeps.lexeme]
    split
    · refine andThen_relabel (inside rest) fun e after => ?_
      exact andThen_relabel (eat_relabel keeps _ _ after) fun _ _ => rfl
    · split
      · rfl
      · split <;> rfl

theorem unary_relabel (keeps : Token.KeepsFace g) (inside : Relabels g (Expr.relabel g) inner) :
    Relabels g (Expr.relabel g) (unary inner) := by
  intro ts
  induction ts with
  | nil => rfl
  | cons t rest ih =>
    have terms := term_relabel keeps inside (t :: rest)
    rw [List.map_cons] at terms
    rw [List.map_cons, unary, unary, keeps.is, keeps.lexeme, terms]
    split
    · exact map_relabel ih fun _ => rfl
    · rfl

theorem additiveWithin_relabel (keeps : Token.KeepsFace g) (n : Nat) :
    Relabels g (Expr.relabel g) (additiveWithin n) := by
  induction n with
  | zero => exact fun ts => rfl
  | succ n ih => exact level_relabel keeps _ (level_relabel keeps _ (unary_relabel keeps ih))

theorem additive_relabel (keeps : Token.KeepsFace g) : Relabels g (Expr.relabel g) additive := by
  intro ts
  rw [additive, List.length_map]
  exact additiveWithin_relabel keeps ts.length ts

theorem assignmentOrExpression_relabel (keeps : Token.KeepsFace g) :
    Relabels g (Expr.relabel g) assignmentOrExpression := by
  intro ts
  cases ts with
  | nil => rfl
  | cons name rest =>
    cases rest with
    | nil => exact additive_relabel keeps [name]
    | cons equals after =>
      have plain := additive_relabel keeps (name :: equals :: after)
      simp only [List.map_cons] at plain
      simp only [List.map_cons, assignmentOrExpression, keeps.kind, keeps.is, keeps.lexeme, plain]
      split
      · exact map_relabel (additive_relabel keeps after) fun _ => rfl
      · rfl

theorem terminated_relabel (keeps : Token.KeepsFace g) : Relabels g (Expr.relabel g) terminated := by
  intro ts
  refine andThen_relabel (assignmentOrExpression_relabel keeps ts) fun e rest => ?_
  exact andThen_relabel (eat_relabel keeps _ _ rest) fun _ _ => rfl

theorem condition_relabel (keeps : Token.KeepsFace g) : Relabels g (Expr.relabel g) condition := by
  intro ts
  refine andThen_relabel (assignmentOrExpression_relabel keeps ts) fun e rest => ?_
  cases rest with
  | nil => rfl
  | cons t after =>
    simp only [List.map_cons, keeps.is]
    split <;> rfl

theorem statementsUntil_relabel (stop : Token → Bool) (blind : ∀ t, stop (g t) = stop t)
    (each : Relabels g (Stmt.relabel g) one) (n : Nat) :
    Relabels g (Stmt.relabelAll g) (statementsUntil stop one n) := by
  induction n with
  | zero => exact fun ts => rfl
  | succ n ih =>
    intro ts
    cases ts with
    | nil => rfl
    | cons t rest =>
      have first := each (t :: rest)
      rw [List.map_cons] at first
      rw [List.map_cons, statementsUntil, statementsUntil, blind]
      split
      · rfl
      · refine andThen_relabel first fun s after => ?_
        exact map_relabel (ih after) fun _ => rfl

theorem block_relabel (keeps : Token.KeepsFace g) (each : Relabels g (Stmt.relabel g) one) :
    Relabels g (Stmt.relabelAll g) (block one) := by
  intro ts
  refine andThen_relabel (eat_relabel keeps _ _ ts) fun _ us => ?_
  rw [List.length_map]
  refine andThen_relabel
    (statementsUntil_relabel _ (fun t => keeps.is t _ _) each us.length us) fun body vs => ?_
  exact andThen_relabel (eat_relabel keeps _ _ vs) fun _ _ => rfl

theorem guarded_relabel (keeps : Token.KeepsFace g) (each : Relabels g (Stmt.relabel g) one) :
    Relabels g (fun x => (x.1.relabel g, Stmt.relabelAll g x.2)) (guarded one) := by
  intro ts
  refine andThen_relabel (eat_relabel keeps _ _ ts) fun _ us => ?_
  refine andThen_relabel (condition_relabel keeps us) fun c vs => ?_
  refine andThen_relabel (eat_relabel keeps _ _ vs) fun _ ws => ?_
  exact map_relabel (block_relabel keeps each ws) fun _ => rfl

theorem statementWithin_relabel (keeps : Token.KeepsFace g) (n : Nat) :
    Relabels g (Stmt.relabel g) (statementWithin n) := by
  induction n with
  | zero => exact fun ts => rfl
  | succ n ih =>
    intro ts
    cases ts with
    | nil => rfl
    | cons t rest =>
      have plain := terminated_relabel keeps (t :: rest)
      rw [List.map_cons] at plain
      simp only [List.map_cons, statementWithin, keeps.is]
      split
      · exact map_relabel (guarded_relabel keeps ih rest) fun _ => by simp [Stmt.relabel]
      · split
        · exact map_relabel (guarded_relabel keeps ih rest) fun _ => by simp [Stmt.relabel]
        · split
          · exact map_relabel (terminated_relabel keeps rest) fun _ => by simp [Stmt.relabel]
          · exact map_relabel plain fun _ => by simp [Stmt.relabel]

theorem statement_relabel (keeps : Token.KeepsFace g) : Relabels g (Stmt.relabel g) statement := by
  intro ts
  rw [statement, List.length_map]
  exact statementWithin_relabel keeps ts.length ts

-- A change of places changes the origins in the statements and the place of an error, and
-- nothing else.
theorem program_relabel (keeps : Token.KeepsFace g) (ts : List Token) :
    (∀ body, program ts = .ok body → program (ts.map g) = .ok (Stmt.relabelAll g body)) ∧
    (∀ e, program ts = .error e →
      ∃ place, program (ts.map g) = .error { e with position := place }) := by
  have same := statementsUntil_relabel (fun _ => false) (fun _ => rfl) (statement_relabel keeps)
    ts.length ts
  simp only [program, List.length_map, same]
  cases statementsUntil (fun _ => false) statement ts.length ts with
  | ok body rest =>
    refine ⟨fun found read => ?_, fun e read => by cases read⟩
    cases read
    rfl
  | stuck expected rest =>
    refine ⟨fun found read => (by cases read), fun e read => ?_⟩
    cases read
    cases rest with
    | nil => exact ⟨_, rfl⟩
    | cons t after =>
      refine ⟨(g t).position, ?_⟩
      simp [relabel, ParseError.stuckAt, keeps.lexeme]

theorem program_faces (faces : tokens.map Token.face = ts.map Token.face)
    (read : program ts = .ok body) :
    ∃ found, program tokens = .ok found ∧ Stmt.eraseAll found = Stmt.eraseAll body := by
  have moved := (program_relabel Token.bare_keeps ts).1 body read
  rw [← Token.bare_faces faces] at moved
  cases again : program tokens with
  | error e =>
    obtain ⟨place, failed⟩ := (program_relabel Token.bare_keeps tokens).2 e again
    cases moved.symm.trans failed
  | ok found =>
    have placed := (program_relabel Token.bare_keeps tokens).1 found again
    have same := congrArg Stmt.eraseAll (Except.ok.inj (placed.symm.trans moved))
    rw [Stmt.eraseAll, Stmt.relabelAll_relabelAll, Stmt.relabelAll_relabelAll] at same
    exact ⟨found, rfl, same⟩

end Parse

end Minilang
