import Minilang.Proofs.TokenDescent

namespace Minilang.Descent

section Progress

open Grammar Parse

variable {α β : Type} {ts rest : List Token} {strict : Bool}

structure Onward (strict : Bool) (ts : List Token) (r : Reading α) : Prop where
  suffix : r.rest <:+ ts
  taken : strict = true → ∀ x rest, r = .ok x rest → rest.length < ts.length

theorem Onward.left {r : Reading α} (onward : Onward strict ts r) (read : r = .ok x rest) :
    rest <:+ ts := by
  have suffix := onward.suffix
  rwa [read] at suffix

theorem follows_onward {D : List Token → α → Prop} {reader : List Token → Reading α}
    (follows : Reading.Follows D reader) (filled : strict = true → ∀ us y, D us y → us ≠ [])
    (ts : List Token) : Onward strict ts (reader ts) where
  suffix := follows.suffix ts
  taken takes _ _ read := follows.progress (filled takes) read

theorem eat_ok {kind : TokenKind} {lexeme : String} (read : Reading.eat kind lexeme ts = .ok t rest) :
    ts = t :: rest := by
  cases ts with
  | nil => cases read
  | cons u us =>
    rw [Reading.eat] at read
    split at read <;> cases read
    rfl

theorem eat_stuck {kind : TokenKind} {lexeme : String}
    (read : Reading.eat kind lexeme ts = .stuck expected rest) : rest = ts := by
  cases ts with
  | nil => cases read; rfl
  | cons u us =>
    rw [Reading.eat] at read
    split at read <;> cases read
    rfl

theorem rest_map (f : α → β) (r : Reading α) : (r.map f).rest = r.rest := by
  cases r <;> rfl

theorem behind_onward {f : Token → α → β} {reader : List Token → Reading α} (kind : TokenKind)
    (lexeme : String) (within : ∀ us, (reader us).rest <:+ us) (ts : List Token) :
    Onward strict ts ((Reading.eat kind lexeme ts).andThen fun t rest =>
      (reader rest).map (f t)) := by
  cases eaten : Reading.eat kind lexeme ts with
  | stuck expected left =>
    obtain rfl := eat_stuck eaten
    exact ⟨List.suffix_rfl, fun _ _ _ same => by cases same⟩
  | ok t us =>
    obtain rfl := eat_ok eaten
    have inner : ((reader us).map (f t)).rest <:+ us := by
      rw [rest_map]
      exact within us
    refine ⟨inner.trans (List.suffix_cons t us), ?_⟩
    intro _ x rest read
    rw [show (reader us).map (f t) = .ok x rest from read] at inner
    exact Nat.lt_succ_of_le inner.length_le

theorem Tier.operand_follows (tier : Tier) :
    ∃ low high, Chains tier.operators low high ∧
      Reading.Follows (Expression low) tier.operand := by
  cases tier with
  | sum => exact ⟨_, _, sums, multiplicative_follows additive_follows⟩
  | product => exact ⟨_, _, products, unary_follows additive_follows⟩

theorem expression_filled {rank : Level} (us : List Token) (e : Expr)
    (derived : Expression rank us e) : us ≠ [] := by
  obtain ⟨first, rest, rfl, _⟩ := derived.starts
  exact List.cons_ne_nil _ _

theorem Tier.operand_onward (tier : Tier) (ts : List Token) : Onward true ts (tier.operand ts) := by
  obtain ⟨low, high, _, follows⟩ := tier.operand_follows
  exact follows_onward follows (fun _ => expression_filled) ts

theorem terminated_filled (us : List Token) (e : Expr) (derived : Terminated us e) : us ≠ [] := by
  obtain ⟨vs, last, rfl, _⟩ := derived
  simp

theorem condition_filled (us : List Token) (e : Expr) (derived : Condition us e) : us ≠ [] := by
  obtain ⟨vs, os, rfl, inner, _⟩ := derived
  obtain ⟨first, rest, rfl, _⟩ := inner.starts
  simp

theorem block_filled (us : List Token) (body : List Stmt) (derived : Block us body) : us ≠ [] := by
  obtain ⟨first, bs, last, rfl, _⟩ := derived
  simp

-- Only the rounds of a loop may succeed without a token.
theorem Call.onward (call : Call) (ts : List Token) :
    Onward (!call.isLoop) ts (call.reading ts) := by
  cases call with
  | statement => exact follows_onward statement_follows (fun _ _ _ => Statement.nonempty) ts
  | guardedBlock keyword =>
    exact behind_onward .keyword keyword (guarded_follows statement_follows).suffix ts
  | block => exact follows_onward (block_follows statement_follows) (fun _ => block_filled) ts
  | statements inBlock =>
    exact follows_onward (statements_follows (stops inBlock)) (fun takes => by cases takes) ts
  | print => exact behind_onward .keyword "print" terminated_follows.suffix ts
  | assignmentOrExpression inCondition =>
    cases inCondition with
    | true => exact follows_onward condition_follows (fun _ => condition_filled) ts
    | false => exact follows_onward terminated_follows (fun _ => terminated_filled) ts
  | binary tier =>
    cases tier with
    | sum => exact follows_onward additive_follows (fun _ => expression_filled) ts
    | product =>
      exact follows_onward (multiplicative_follows additive_follows) (fun _ => expression_filled) ts
  | operands tier left =>
    obtain ⟨low, high, rules, operands⟩ := tier.operand_follows
    exact follows_onward (rest_follows rules operands left) (fun takes => by cases takes) ts
  | unary => exact follows_onward (unary_follows additive_follows) (fun _ => expression_filled) ts
  | term => exact follows_onward (term_follows additive_follows) (fun _ => expression_filled) ts

end Progress

section Service

open Parse

variable {tokens ts : List Token} {bound : Nat} {self : (call : Call) → Action call.Result}

-- Calls that are answered as the readers answer, as long as the bound is above their effort.
def Serves (tokens : List Token) (bound : Nat) (self : (call : Call) → Action call.Result) : Prop :=
  ∀ call ts, ts <:+ tokens → call.effort ts.length < bound →
    Lands tokens (self call) ts (call.reading ts)

theorem Serves.behind (serves : Serves tokens bound self) {caller : Call}
    (enough : caller.effort ts.length ≤ bound) (call : Call) (suffix : us <:+ tokens)
    (shorter : us.length < ts.length) : Lands tokens (self call) us (call.reading us) :=
  serves call us suffix (Nat.lt_of_lt_of_le (call.effort_shorter caller shorter) enough)

theorem term_lands (serves : Serves tokens bound self) (suffix : ts <:+ tokens)
    (enough : Call.term.effort ts.length ≤ bound) :
    Lands tokens (term self) ts (Parse.term Parse.additive ts) := by
  refine .after (current_lands suffix) ?_
  cases ts with
  | nil => exact fail_lands suffix _
  | cons t rest =>
    refine .ite (fun _ => ?_) fun _ => .ite (fun _ => ?_) fun _ => .ite (fun _ => ?_) fun _ => ?_
    · have behind := (List.suffix_cons t rest).trans suffix
      refine .after (advance_lands suffix) ?_
      refine .bind (serves.behind enough .additive behind (by simp)) fun e after read => ?_
      have left := ((Call.onward .additive rest).left read).trans behind
      exact .bind (eat_lands left .paren ")") fun _ _ _ => pure_lands e
    · exact .after (advance_lands suffix) (pure_lands _)
    · exact .after (advance_lands suffix) (pure_lands _)
    · exact fail_lands suffix _

theorem unary_lands (serves : Serves tokens bound self) (suffix : ts <:+ tokens)
    (enough : Call.unary.effort ts.length ≤ bound) :
    Lands tokens (unary self) ts (Parse.unary Parse.additive ts) := by
  refine .after (current_lands suffix) ?_
  cases ts with
  | nil => exact serves .term [] suffix enough
  | cons t rest =>
    refine .ite (fun _ => ?_) fun _ => serves .term (t :: rest) suffix enough
    have behind := (List.suffix_cons t rest).trans suffix
    refine .after (advance_lands suffix) ?_
    exact .bind (serves.behind enough .unary behind (by simp)) fun e _ _ => pure_lands _

theorem operand_lands (serves : Serves tokens bound self) (suffix : ts <:+ tokens) (tier : Tier)
    (enough : (Call.binary tier).effort ts.length ≤ bound) :
    Lands tokens (operand self tier) ts (tier.operand ts) := by
  cases tier with
  | sum => exact serves .multiplicative ts suffix enough
  | product => exact serves .unary ts suffix enough

-- The rounds behind an operand are bounded by the tokens in front of it, which are more than
-- those behind it.
theorem operands_lands (serves : Serves tokens bound self) (suffix : ts <:+ tokens) (tier : Tier)
    (left : Expr) (enough : (Call.operands tier left).effort ts.length ≤ bound) :
    Lands tokens (operands self tier left) ts ((Call.operands tier left).reading ts) := by
  obtain ⟨low, high, rules, follows⟩ := tier.operand_follows
  refine .after (current_lands suffix) ?_
  cases ts with
  | nil => exact pure_lands left
  | cons t rest =>
    refine .ite (fun _ => ?_) fun _ => pure_lands left
    have behind := (List.suffix_cons t rest).trans suffix
    have lighter := (Call.binary tier).effort_shorter (.operands tier left)
      (Nat.lt_succ_self rest.length)
    refine .after (advance_lands suffix) ?_
    refine .bind (operand_lands serves behind tier (Nat.le_trans (Nat.le_of_lt lighter) enough))
      fun right after read => ?_
    have inner := (tier.operand_onward rest).left read
    have shorter := inner.length_le
    rw [chain_agree (fun _ _ => rfl) follows rest.length after.length _ (Nat.le_refl _) shorter
      (Nat.le_refl _)]
    exact serves.behind enough (.operands tier (.binary t t.lexeme left right)) (inner.trans behind)
      (Nat.lt_succ_of_le shorter)

theorem binary_lands (serves : Serves tokens bound self) (suffix : ts <:+ tokens) (tier : Tier)
    (enough : (Call.binary tier).effort ts.length ≤ bound) :
    Lands tokens (binary self tier) ts ((Call.binary tier).reading ts) := by
  have parts : (Call.binary tier).reading ts = (tier.operand ts).andThen fun left rest =>
      (Call.operands tier left).reading rest := by
    cases tier with
    | sum => exact additive_eq ts
    | product => rfl
  rw [parts]
  refine .bind (operand_lands serves suffix tier enough) fun left rest read => ?_
  have onward := tier.operand_onward ts
  exact serves.behind enough (.operands tier left) ((onward.left read).trans suffix)
    (onward.taken rfl _ _ read)

theorem namesTarget_lands (suffix : t :: rest <:+ tokens) :
    Lands tokens (namesTarget t) (t :: rest)
      (.ok (t.kind == .identifier && rest.head?.any (·.is .operator "=")) (t :: rest)) := by
  unfold namesTarget
  cases t.kind == .identifier with
  | true => exact peekIs_lands suffix .operator "="
  | false => exact pure_lands false

theorem assigned_lands (serves : Serves tokens bound self) (suffix : ts <:+ tokens)
    (inCondition : Bool)
    (enough : (Call.assignmentOrExpression inCondition).effort ts.length ≤ bound) :
    Lands tokens (assigned self) ts (Parse.assignmentOrExpression ts) := by
  have plain : Lands tokens (self .additive) ts (Parse.additive ts) :=
    serves .additive ts suffix enough
  cases ts with
  | nil => exact .after currentToken_end (.after (pure_lands false) plain)
  | cons name rest =>
    have looked := namesTarget_lands suffix
    refine .after (currentToken_lands suffix) (.after looked ?_)
    cases rest with
    | nil =>
      rw [List.head?_nil, Option.any_none, Bool.and_false]
      exact plain
    | cons equals rest =>
      refine .ite (fun _ => ?_) fun _ => plain
      have next := (List.suffix_cons name _).trans suffix
      have behind := (List.suffix_cons equals rest).trans next
      have shorter : rest.length < (name :: equals :: rest).length := by
        simp only [List.length_cons]
        omega
      refine .after (advance_lands suffix) (.after (currentToken_lands next) ?_)
      refine .after (advance_lands next) ?_
      exact .bind (serves.behind enough .additive behind shorter) fun e _ _ => pure_lands _

theorem assignmentOrExpression_lands (serves : Serves tokens bound self) (suffix : ts <:+ tokens)
    (inCondition : Bool)
    (enough : (Call.assignmentOrExpression inCondition).effort ts.length ≤ bound) :
    Lands tokens (assignmentOrExpression self inCondition) ts
      ((Call.assignmentOrExpression inCondition).reading ts) := by
  have inner := assigned_lands serves suffix inCondition enough
  have left := assignmentOrExpression_follows.suffix ts
  cases inCondition with
  | true =>
    refine .bind inner fun e rest read => ?_
    rw [read] at left
    have behind : rest <:+ tokens := left.trans suffix
    refine .after (check_lands behind .semicolon ";") ?_
    cases rest with
    | nil => exact pure_lands e
    | cons t after =>
      exact .ite (fun _ => .after (advance_lands behind) (pure_lands e)) fun _ => pure_lands e
  | false =>
    refine .bind inner fun e rest read => ?_
    rw [read] at left
    have behind : rest <:+ tokens := left.trans suffix
    exact .bind (eat_lands behind .semicolon ";") fun _ _ _ => pure_lands e

theorem print_lands (serves : Serves tokens bound self) (suffix : ts <:+ tokens)
    (enough : Call.print.effort ts.length ≤ bound) :
    Lands tokens (print self) ts (Call.print.reading ts) := by
  refine .bind (eat_lands suffix .keyword "print") fun t rest read => ?_
  obtain rfl := eat_ok read
  have behind := (List.suffix_cons t rest).trans suffix
  exact .bind (serves.behind enough (.assignmentOrExpression false) behind (by simp))
    fun e _ _ => pure_lands _

theorem statements_lands (serves : Serves tokens bound self) (suffix : ts <:+ tokens)
    (inBlock : Bool) (enough : (Call.statements inBlock).effort ts.length ≤ bound) :
    Lands tokens (statements self inBlock) ts (Parse.statements (stops inBlock) ts) := by
  refine .after (current_lands suffix) ?_
  cases ts with
  | nil => exact pure_lands []
  | cons t rest =>
    simp only [List.head?_cons]
    cases stop : stops inBlock t with
    | true =>
      rw [statements_stops (.inr ⟨t, rest, rfl, stop⟩)]
      exact pure_lands []
    | false =>
      rw [statements_cons stop]
      -- The statement takes a token, which pays for the next round.
      have onward := Call.onward .statement (t :: rest)
      refine .bind (serves .statement (t :: rest) suffix enough) fun s after read => ?_
      exact .bind (serves.behind enough (.statements inBlock) ((onward.left read).trans suffix)
        (onward.taken rfl _ _ read)) fun ss _ _ => pure_lands _

theorem block_lands (serves : Serves tokens bound self) (suffix : ts <:+ tokens)
    (enough : Call.block.effort ts.length ≤ bound) :
    Lands tokens (block self) ts (Parse.block Parse.statement ts) := by
  refine .bind (eat_lands suffix .brace "\x7b") fun t rest read => ?_
  obtain rfl := eat_ok read
  have behind := (List.suffix_cons t rest).trans suffix
  refine .bind (serves.behind enough (.statements true) behind (by simp)) fun body after read => ?_
  have left := ((Call.onward (.statements true) rest).left read).trans behind
  exact .bind (eat_lands left .brace "\x7d") fun _ _ _ => pure_lands body

theorem andThen_assoc {α β γ : Type} (r : Reading α) (f : α → List Token → Reading β)
    (g : β → List Token → Reading γ) :
    (r.andThen f).andThen g = r.andThen fun x rest => (f x rest).andThen g := by
  cases r <;> rfl

theorem guardedBlock_lands (serves : Serves tokens bound self) (suffix : ts <:+ tokens)
    (keyword : String) (enough : (Call.guardedBlock keyword).effort ts.length ≤ bound) :
    Lands tokens (guardedBlock self keyword) ts ((Call.guardedBlock keyword).reading ts) := by
  refine .bind (eat_lands suffix .keyword keyword) fun t rest read => ?_
  obtain rfl := eat_ok read
  have behind := (List.suffix_cons t rest).trans suffix
  simp only [Parse.guarded, Reading.map, andThen_assoc]
  refine .bind (eat_lands behind .paren "(") fun opening inner read => ?_
  obtain rfl := eat_ok read
  have inside := (List.suffix_cons opening inner).trans behind
  have fewer : inner.length < (t :: opening :: inner).length := by
    simp only [List.length_cons]
    omega
  refine .bind (serves.behind enough (.assignmentOrExpression true) inside fewer)
    fun guard after read => ?_
  have left := (Call.onward (.assignmentOrExpression true) inner).left read
  have shorter := left.length_le
  refine .bind (eat_lands (left.trans inside) .paren ")") fun closing last read => ?_
  obtain rfl := eat_ok read
  have least : last.length < (t :: opening :: inner).length := by
    simp only [List.length_cons] at shorter ⊢
    omega
  exact .bind (serves.behind enough .block
    ((List.suffix_cons closing last).trans (left.trans inside)) least) fun body _ _ => pure_lands _

theorem guardedStatement_lands (serves : Serves tokens bound self) (suffix : t :: rest <:+ tokens)
    (enough : Call.statement.effort (t :: rest).length ≤ bound) (mark : t.is .keyword keyword)
    (build : Token → Expr → List Stmt → Stmt) :
    Lands tokens (guardedStatement self keyword build) (t :: rest)
      ((Parse.guarded Parse.statement rest).map fun found => build t found.1 found.2) := by
  have guarded : (Call.guardedBlock keyword).reading (t :: rest) =
      (Parse.guarded Parse.statement rest).map (t, ·) := by
    simp [Call.reading, Reading.eat, mark, Reading.andThen]
  have found := serves (.guardedBlock keyword) (t :: rest) suffix
    (Nat.lt_of_lt_of_le (by simp [Call.effort, Call.rank]) enough)
  rw [guarded] at found
  have parts : Lands tokens (guardedStatement self keyword build) (t :: rest)
      (((Parse.guarded Parse.statement rest).map (t, ·)).andThen fun found left =>
        .ok (build found.1 found.2.1 found.2.2) left) :=
    .bind found fun _ _ _ => pure_lands _
  rw [Reading.map, andThen_assoc] at parts
  exact parts

theorem statement_lands (serves : Serves tokens bound self) (suffix : ts <:+ tokens)
    (enough : Call.statement.effort ts.length ≤ bound) :
    Lands tokens (statement self) ts (Parse.statement ts) := by
  have plain : Lands tokens (do return Stmt.expr (← self (.assignmentOrExpression false))) ts
      ((terminated ts).map Stmt.expr) :=
    .bind (serves (.assignmentOrExpression false) ts suffix enough) fun e _ _ => pure_lands _
  rw [statement_eq]
  cases ts with
  | nil => exact .after currentToken_end plain
  | cons t rest =>
    refine .after (currentToken_lands suffix) ?_
    refine .ite (fun branch => ?_) fun _ => .ite (fun loop => ?_) fun _ =>
      .ite (fun printed => ?_) fun _ => plain
    · exact guardedStatement_lands serves suffix enough branch .branch
    · exact guardedStatement_lands serves suffix enough loop .loop
    · have reading : Call.print.reading (t :: rest) = (terminated rest).map (.print t) := by
        simp [Call.reading, Reading.eat, printed, Reading.andThen]
      rw [← reading]
      exact serves .print (t :: rest) suffix
        (Nat.lt_of_lt_of_le (by simp [Call.effort, Call.rank]) enough)

theorem body_serves (serves : Serves tokens bound self) : Serves tokens (bound + 1) (body self) := by
  intro call ts suffix enough
  have enough := Nat.le_of_lt_succ enough
  cases call with
  | statement => exact statement_lands serves suffix enough
  | guardedBlock keyword => exact guardedBlock_lands serves suffix keyword enough
  | block => exact block_lands serves suffix enough
  | statements inBlock => exact statements_lands serves suffix inBlock enough
  | print => exact print_lands serves suffix enough
  | assignmentOrExpression inCondition =>
    exact assignmentOrExpression_lands serves suffix inCondition enough
  | binary tier => exact binary_lands serves suffix tier enough
  | operands tier left => exact operands_lands serves suffix tier left enough
  | unary => exact unary_lands serves suffix enough
  | term => exact term_lands serves suffix enough

theorem run_serves (tokens : List Token) (n : Nat) : Serves tokens n (run n) := by
  induction n with
  | zero =>
    intro call ts _ enough
    exact absurd enough (Nat.not_lt_zero _)
  | succ n ih => exact body_serves ih

end Service

section Returning

variable {α : Type} {tokens ts : List Token} {pos : Nat} {strict : Bool}

def Outcome.MovesOn (strict : Bool) (p : Place) : Outcome α → Prop
  | .returned _ q =>
    q.tokens = p.tokens ∧ p.pos ≤ q.pos ∧ (strict = true → p.pos < q.pos) ∧ q.pos ≤ p.tokens.length
  | .failed _ q => q.tokens = p.tokens ∧ p.pos ≤ q.pos ∧ q.pos ≤ p.tokens.length

theorem landed_movesOn {r : Reading α} (suffix : ts <:+ tokens) (onward : Onward strict ts r) :
    (landed tokens r).MovesOn strict (.before tokens ts) := by
  have most := suffix.length_le
  have fewer := onward.suffix.length_le
  cases r with
  | ok x rest =>
    have fewer : rest.length ≤ ts.length := fewer
    refine ⟨rfl, Nat.sub_le_sub_left fewer _, ?_, Nat.sub_le _ _⟩
    intro takes
    have less := onward.taken takes x rest rfl
    exact Nat.sub_lt_sub_left (by omega) less
  | stuck expected rest => exact ⟨rfl, Nat.sub_le_sub_left fewer _, Nat.sub_le _ _⟩

theorem before_drop (inside : pos ≤ tokens.length) :
    Place.before tokens (tokens.drop pos) = ⟨tokens, pos⟩ := by
  simp only [Place.before, List.length_drop, Place.mk.injEq, true_and]
  omega

-- A place whose token could name a variable has a token, so the step ahead is a real one.
theorem peekIs_returns (named : ((Place.mk tokens pos).current?.getD noToken).kind = .identifier)
    (kind : TokenKind) (lexeme : String) :
    peekIs kind lexeme ⟨tokens, pos⟩ =
      some (.returned (tokens[pos + 1]?.any (·.is kind lexeme)) ⟨tokens, pos⟩) := by
  have inside : pos < tokens.length := by
    refine Decidable.byContradiction fun outside => ?_
    rw [Place.current?, List.getElem?_eq_none (Nat.le_of_not_lt outside)] at named
    cases named
  simp [peekIs, Place.advance, Place.retreat, Place.check, Place.current?, inside]

theorem program_descends (tokens : List Token) (n : Nat)
    (enough : (Call.statements false).effort tokens.length < n) :
    (∀ body, Parse.program tokens = .ok body ↔
      run n (.statements false) ⟨tokens, 0⟩ = some (.returned body ⟨tokens, tokens.length⟩)) ∧
    ∀ e, Parse.program tokens = .error e ↔
      ∃ place, run n (.statements false) ⟨tokens, 0⟩ = some (.failed e place) := by
  have lands := run_serves tokens n (.statements false) tokens List.suffix_rfl enough
  have start : Place.before tokens tokens = ⟨tokens, 0⟩ := by simp [Place.before]
  have all : (Call.statements false).reading tokens = Parse.statements (fun _ => false) tokens := rfl
  rw [Lands, start, all] at lands
  rw [lands, Parse.program_eq]
  cases read : Parse.statements (fun _ => false) tokens with
  | ok found rest =>
    obtain rfl | ⟨t, after, _, stopped⟩ := Parse.statements_end read
    · simp [landed, Place.before]
    · cases stopped
  | stuck expected rest => simp [landed]

theorem descent_returns (tokens : List Token) (pos : Nat) (inside : pos ≤ tokens.length) :
    (∀ call : Call, ∃ outcome,
      (∀ n, call.effort (tokens.length - pos) < n → run n call ⟨tokens, pos⟩ = some outcome) ∧
      outcome = landed tokens (call.reading (tokens.drop pos)) ∧
      outcome.MovesOn (!call.isLoop) ⟨tokens, pos⟩) ∧
    (((Place.mk tokens pos).current?.getD noToken).kind = .identifier → ∀ kind lexeme,
      peekIs kind lexeme ⟨tokens, pos⟩ =
        some (.returned (tokens[pos + 1]?.any (·.is kind lexeme)) ⟨tokens, pos⟩)) ∧
    ∀ n, (Call.statements false).effort tokens.length < n →
      (∀ body, Parse.program tokens = .ok body ↔
        run n (.statements false) ⟨tokens, 0⟩ = some (.returned body ⟨tokens, tokens.length⟩)) ∧
      ∀ e, Parse.program tokens = .error e ↔
        ∃ place, run n (.statements false) ⟨tokens, 0⟩ = some (.failed e place) := by
  have suffix := List.drop_suffix pos tokens
  refine ⟨?_, peekIs_returns, program_descends tokens⟩
  intro call
  refine ⟨_, ?_, rfl, ?_⟩
  · intro n enough
    rw [← List.length_drop] at enough
    rw [← before_drop inside]
    exact run_serves tokens n call _ suffix enough
  · rw [← before_drop inside]
    exact landed_movesOn suffix (call.onward _)

theorem descent_returns_last :
    let x : Token := ⟨.origin, .identifier, "x", none⟩
    peekIs .operator "=" ⟨[x], 0⟩ = some (.returned false ⟨[x], 0⟩) ∧
    run 13 .statement ⟨[x], 0⟩ =
      some (.failed ⟨.origin, .lexeme ";", ParseError.endOfInput, true⟩ ⟨[x], 1⟩) ∧
    run 11 .additive ⟨[x], 0⟩ = some (.returned (.ident x "x") ⟨[x], 1⟩) := by
  intro x
  obtain ⟨returns, looks, _⟩ := descent_returns [x] 0 (by decide)
  obtain ⟨_, bounded, rfl, _⟩ := returns .statement
  obtain ⟨_, summed, rfl, _⟩ := returns .additive
  exact ⟨looks rfl .operator "=", bounded 13 (by decide), summed 11 (by decide)⟩

end Returning

end Minilang.Descent
