import Minilang.Proofs.FaultOrigin
import Minilang.Proofs.FrontEnd
import Minilang.Proofs.Running

namespace Minilang

-- What a readable tree can do wrong. Every other fault is raised by a node that no text gives.
theorem Expr.Plain.node {e : Expr} (plain : e.Plain) : ∀ node ∈ e.nodes, node.Plain := by
  induction e with
  | missing | assign => exact absurd plain id
  | number | ident => simpa [nodes] using plain
  | unary origin operator operand ih =>
    exact List.forall_mem_cons.mpr ⟨plain, ih plain.2⟩
  | binary origin operator left right first second =>
    exact List.forall_mem_cons.mpr
      ⟨plain, List.forall_mem_append.mpr ⟨first plain.2.1, second plain.2.2⟩⟩

theorem Raises.runtime {node : Expr} (raises : Raises mode last node fault) (plain : node.Plain) :
    ∃ e, fault = .runtime e := by
  cases raises with
  | missing | target => exact absurd plain id
  | unbound | division | modulo => exact ⟨_, rfl⟩
  | sign unknown | operator unknown => exact absurd plain.1 unknown

theorem Expr.Readable.runtime {e node : Expr} (readable : e.Readable) (member : node ∈ e.nodes)
    (raises : Raises mode last node fault) : ∃ error, fault = .runtime error := by
  cases e with
  | assign origin target value =>
    obtain ⟨⟨found, rfl, _⟩, plain⟩ := readable
    obtain rfl | inside := List.mem_cons.mp member
    · cases raises
    · exact raises.runtime (plain.node node inside)
  | missing | number | ident | unary | binary =>
    exact raises.runtime (Expr.Plain.node readable node member)

mutual
theorem Stmt.Readable.expressions : ∀ s : Stmt, s.Readable → ∀ e ∈ s.expressions, e.Readable
  | .expr _, readable | .print _ _, readable => List.forall_mem_singleton.mpr readable
  | .branch _ _ body, readable | .loop _ _ body, readable =>
    List.forall_mem_cons.mpr ⟨readable.1, Stmt.AllReadable.expressions body readable.2⟩

theorem Stmt.AllReadable.expressions :
    ∀ body, Stmt.AllReadable body → ∀ e ∈ Stmt.allExpressions body, e.Readable
  | [], _ => List.forall_mem_nil _
  | s :: body, readable => List.forall_mem_append.mpr
    ⟨Stmt.Readable.expressions s readable.1, Stmt.AllReadable.expressions body readable.2⟩
end

theorem source_readable (scanned : Token.scan source = .ok tokens)
    (parsed : Parse.program tokens = .ok body) : Stmt.AllReadable body := by
  rw [Token.scan_eq] at scanned
  exact (Parse.program_derived parsed).readable (Token.scanAt_valid scanned)

theorem Ends.runtime (ran : Ends options body m (some fault) after)
    (readable : Stmt.AllReadable body) :
    (∃ e, fault = .runtime e) ∨ ∃ error, fault = .closedOutput error ∧ after.sink = some ⟨0, error⟩ := by
  cases ran.stops with
  | evaluation member failed =>
    obtain ⟨node, inside, raises⟩ := eval_raises failed
    exact .inl ((Stmt.AllReadable.expressions body readable _ member).runtime inside raises)
  | output full => exact .inr ⟨_, rfl, full⟩

inductive RunsTo (options : RunOptions) (sink : Option Sink) (path : String) (source : List UInt8) :
    Ending → Prop where
  | unscanned (scanned : Token.scan source = .error e) :
      RunsTo options sink path source ⟨none, some (.inProgram path (.lex e))⟩
  | unparsed (scanned : Token.scan source = .ok tokens) (parsed : Parse.program tokens = .error e) :
      RunsTo options sink path source ⟨none, some (.inProgram path (.parse e))⟩
  | ran (scanned : Token.scan source = .ok tokens) (parsed : Parse.program tokens = .ok body)
      (ran : Ends options body (.start .empty sink) outcome after) :
      RunsTo options sink path source
        ⟨some after, outcome.map fun fault => .inProgram path (.ofFault fault)⟩

theorem runSource_runsTo (ended : runSource options bound sink path source = some ending) :
    RunsTo options sink path source ending := by
  unfold runSource Program.compile at ended
  cases scanned : Token.scan source with
  | error e =>
    simp only [scanned, Option.some.injEq] at ended
    subst ended
    exact .unscanned scanned
  | ok tokens =>
    cases parsed : Parse.program tokens with
    | error e =>
      simp only [scanned, parsed, Option.some.injEq] at ended
      subst ended
      exact .unparsed scanned parsed
    | ok body =>
      simp only [scanned, parsed, execute] at ended
      split at ended
      next m finished =>
        cases ended
        have ran : Ends options body (.start .empty sink) none m := ⟨bound, finished⟩
        exact .ran scanned parsed ran
      next fault m failed =>
        cases ended
        have ran : Ends options body (.start .empty sink) (some fault) m := ⟨bound, failed⟩
        exact .ran scanned parsed ran
      next => cases ended

theorem run_failures_exhaustive (options : RunOptions) (path : String) (source : List UInt8) :
    (∀ bound ending, runSource options bound none path source = some ending →
      (∀ failure, ending.failure = some failure →
        (∃ e, failure = .inProgram path (.lex e) ∧ failure.stage = .lex) ∨
        (∃ e, failure = .inProgram path (.parse e) ∧ failure.stage = .parse) ∨
        ∃ e, failure = .inProgram path (.runtime e) ∧ failure.stage = .runtime) ∧
      (ending.machine = none ↔ ∃ failure, ending.failure = some failure ∧
        (failure.stage = .lex ∨ failure.stage = .parse)) ∧
      (ending.machine = none → ending.output = "")) ∧
    ∀ body, Parse.source source = .ok body →
      ∀ m node after, ¬ Ends options body m (some (.internal node)) after := by
  refine ⟨fun bound ending ended => ?_, fun body read m node after ran => ?_⟩
  · cases runSource_runsTo ended with
    | unscanned scanned => simp [Failure.stage, Failure.root, Ending.output]
    | unparsed scanned parsed => simp [Failure.stage, Failure.root, Ending.output]
    | @ran tokens body outcome after scanned parsed ran =>
      cases outcome with
      | none => simp
      | some fault =>
        obtain ⟨e, rfl⟩ | ⟨_, _, full⟩ := ran.runtime (source_readable scanned parsed)
        · simp [Failure.ofFault, Failure.stage, Failure.root, Stage.runtime, Stage.lex, Stage.parse]
        · cases (ran.steps.unlimited rfl).symm.trans full
  · obtain ⟨tokens, scanned, parsed⟩ := source_ok.mp read
    obtain ⟨e, same⟩ | ⟨_, same, _⟩ := ran.runtime (source_readable scanned parsed) <;> cases same

theorem run_failures_exhaustive_division :
    (∃ ending e, runSource {} 0 none "p" [49, 47, 48, 59] = some ending ∧
      ending.failure = some (.inProgram "p" (.runtime e))) ∧
    (∃ body, Parse.source [49, 47, 48, 59] = .ok body ∧
      ∀ m node after, ¬ Ends {} body m (some (.internal node)) after) ∧
    ∃ ending, runSource {} 0 none "p" [49, 47, 48] = some ending ∧
      ending.machine = none ∧ ending.output = "" := by
  refine ⟨?_, ?_, ?_⟩
  · let e : RuntimeError := ⟨⟨0, 1⟩, .divisionByZero, "division by zero", ""⟩
    let ending : Ending := ⟨some (.start .empty none), some (.inProgram "p" (.runtime e))⟩
    have ran : runSource {} 0 none "p" [49, 47, 48, 59] = some ending := rfl
    have stages := ((run_failures_exhaustive {} "p" _).1 0 ending ran).1
    obtain ⟨_, same, _⟩ | ⟨_, same, _⟩ | ⟨e, same, _⟩ := stages _ rfl
    · cases same
    · cases same
    · exact ⟨ending, e, ran, congrArg some same⟩
  · exact ⟨_, rfl, (run_failures_exhaustive {} "p" [49, 47, 48, 59]).2 _ rfl⟩
  · let e : ParseError := ⟨⟨0, 2⟩, .lexeme ";", ParseError.endOfInput, true⟩
    let ending : Ending := ⟨none, some (.inProgram "p" (.parse e))⟩
    have ran : runSource {} 0 none "p" [49, 47, 48] = some ending := rfl
    obtain ⟨_, unstarted, silent⟩ := (run_failures_exhaustive {} "p" _).1 0 ending ran
    have missing := unstarted.mpr ⟨_, rfl, .inr rfl⟩
    exact ⟨ending, ran, missing, silent missing⟩

end Minilang
