import Minilang.Proofs.FrontEnd
import Minilang.Proofs.MovedRun
import Minilang.Run.Program

namespace Minilang

-- What a token looks like in the text. Its value follows from that.
def Token.spelling (t : Token) : TokenKind × String := (t.kind, t.lexeme)

namespace Token

variable {ts us : List Token}

def spelledValue (kind : TokenKind) (lexeme : String) : Option Int :=
  if kind = .number then some (numeralValue lexeme : Int) else none

theorem Valid.value {t : Token} (valid : Valid t) : t.value = spelledValue t.kind t.lexeme := by
  unfold spelledValue
  split
  · rename_i kind
    exact valid.number_value kind
  · rename_i other
    cases valid with
    | number kind => exact absurd kind other
    | word _ _ value | single _ value => exact value

theorem faces_of_spellings (left : ∀ t ∈ ts, t.Valid) (right : ∀ t ∈ us, t.Valid)
    (alike : ts.map spelling = us.map spelling) : ts.map face = us.map face := by
  have through {ts : List Token} (valid : ∀ t ∈ ts, t.Valid) : ts.map face =
      (ts.map spelling).map fun shown => (shown.1, shown.2, spelledValue shown.1 shown.2) := by
    rw [List.map_map]
    refine List.map_congr_left fun t member => ?_
    simp [face, spelling, (valid t member).value]
  rw [through left, through right, alike]

end Token

def nowhere : Position → Position := fun _ => .origin

theorem Token.bare_eq : Token.bare = Token.moved nowhere := rfl

theorem Parse.program_layout {ts us : List Token} (faces : ts.map Token.face = us.map Token.face) :
    (∃ p q, program ts = .ok p ∧ program us = .ok q ∧
      Stmt.relabelAll Token.bare p = Stmt.relabelAll Token.bare q) ∨
    ∃ e f, program ts = .error e ∧ program us = .error f ∧ e.expected = f.expected ∧
      e.found = f.found ∧ e.atEnd = f.atEnd := by
  have same := Token.bare_faces faces
  obtain ⟨readLeft, failLeft⟩ := program_relabel Token.bare_keeps ts
  obtain ⟨readRight, failRight⟩ := program_relabel Token.bare_keeps us
  rw [same] at readLeft failLeft
  cases left : program ts with
  | ok p =>
    have first := readLeft p left
    cases right : program us with
    | ok q =>
      have second := readRight q right
      exact .inl ⟨p, q, rfl, rfl, Except.ok.inj (first.symm.trans second)⟩
    | error f =>
      obtain ⟨place, second⟩ := failRight f right
      cases first.symm.trans second
  | error e =>
    obtain ⟨here, first⟩ := failLeft e left
    cases right : program us with
    | ok q => cases first.symm.trans (readRight q right)
    | error f =>
      obtain ⟨there, second⟩ := failRight f right
      have errors := Except.error.inj (first.symm.trans second)
      simp only [ParseError.mk.injEq] at errors
      exact .inr ⟨e, f, rfl, rfl, errors.2⟩

section Endings

variable (h : Position → Position)

def Failure.moved : Failure → Failure
  | lex e => lex { e with position := h e.position }
  | parse e => parse { e with position := h e.position }
  | runtime e => runtime { e with position := h e.position }
  | inProgram path inner => inProgram path inner.moved
  | context text inner => context text inner.moved
  | other => other

def Ending.moved (e : Ending) : Ending :=
  ⟨e.machine.map (Machine.moved h), e.failure.map (Failure.moved h)⟩

end Endings

section Runs

variable {h : Position → Position} {options : RunOptions} {bound n k : Nat} {sink : Option Sink}
  {path : String} {one two source : List UInt8} {ts us : List Token} {ending : Ending}

theorem execute_moved {p q : Program} (path : q.path = p.path)
    (moved : q.statements = Stmt.relabelAll (Token.moved h) p.statements) :
    execute options bound sink (some q) =
      (execute options bound sink (some p)).map (Ending.moved h) := by
  simp only [execute, path, moved]
  rw [← Machine.start_moved .empty sink, execBlock_moved, Machine.start_moved]
  cases execBlock options bound p.statements (.start .empty sink) with
  | finished m => rfl
  | failed fault m => cases fault <;> rfl
  | unfinished => rfl

theorem runSource_layout (options : RunOptions) (bound : Nat) (sink : Option Sink) (path : String)
    (first : Token.scan one = .ok ts) (second : Token.scan two = .ok us)
    (faces : ts.map Token.face = us.map Token.face) :
    (runSource options bound sink path one).map (Ending.moved nowhere) =
      (runSource options bound sink path two).map (Ending.moved nowhere) := by
  unfold runSource Program.compile
  rw [first, second]
  rcases Parse.program_layout faces with ⟨p, q, left, right, same⟩ | ⟨e, f, left, right, same⟩
  · simp only [left, right]
    let bare : Program := ⟨path, one, ts, Stmt.relabelAll (Token.moved nowhere) p⟩
    have here : execute options bound sink (some bare) = _ :=
      execute_moved (p := ⟨path, one, ts, p⟩) rfl rfl
    have there : execute options bound sink (some bare) = _ :=
      execute_moved (p := ⟨path, two, us, q⟩) rfl (by rw [← Token.bare_eq, ← same]; rfl)
    exact here.symm.trans there
  · obtain ⟨expected, found, atEnd⟩ := same
    simp [left, right, Ending.moved, Failure.moved, nowhere, expected, found, atEnd]

theorem runSource_kept (more : n ≤ k) (ended : runSource options n sink path source = some ending) :
    runSource options k sink path source = some ending := by
  unfold runSource at *
  cases compiled : Program.compile path source with
  | error failure => simpa only [compiled] using ended
  | ok program =>
    simp only [compiled, execute] at ended ⊢
    rcases execBlock_kept options more program.statements (.start .empty sink) with none | same
    · rw [none] at ended
      cases ended
    · rwa [← same]

@[simp]
theorem Ending.moved_output (e : Ending) : (e.moved h).output = e.output := by
  rcases e with ⟨_ | m, failure⟩ <;> rfl

@[simp]
theorem Ending.moved_store (e : Ending) :
    (e.moved h).machine.map (·.store) = e.machine.map (·.store) := by
  rcases e with ⟨_ | m, failure⟩ <;> rfl

end Runs

theorem layout_keeps_meaning (one two : List UInt8) (ts us : List Token)
    (first : Token.scan one = .ok ts) (second : Token.scan two = .ok us)
    (alike : ts.map Token.spelling = us.map Token.spelling) :
    ((∃ p q, Parse.source one = .ok p ∧ Parse.source two = .ok q ∧
        Stmt.relabelAll Token.bare p = Stmt.relabelAll Token.bare q) ∨
      ∃ e f, Parse.source one = .error (.parse e) ∧ Parse.source two = .error (.parse f) ∧
        e.expected = f.expected ∧ e.found = f.found ∧ e.atEnd = f.atEnd) ∧
    ∀ options sink path,
      ((∀ bound, runSource options bound sink path one = none) ↔
        ∀ bound, runSource options bound sink path two = none) ∧
      ∀ n k x y, runSource options n sink path one = some x →
        runSource options k sink path two = some y →
          x.output = y.output ∧ x.machine.map (·.store) = y.machine.map (·.store) ∧
            x.failure.map (Failure.moved nowhere) = y.failure.map (Failure.moved nowhere) := by
  have faces : ts.map Token.face = us.map Token.face :=
    Token.faces_of_spellings (Token.scanAt_valid first) (Token.scanAt_valid second) alike
  refine ⟨?_, fun options sink path => ?_⟩
  · unfold Parse.source
    rw [first, second]
    rcases Parse.program_layout faces with ⟨p, q, left, right, same⟩ | ⟨e, f, left, right, same⟩
    · exact .inl ⟨p, q, by simp [left], by simp [right], same⟩
    · exact .inr ⟨e, f, by simp [left], by simp [right], same⟩
  · have same (bound : Nat) := runSource_layout options bound sink path first second faces
    constructor
    · refine forall_congr' fun bound => ?_
      rw [← Option.map_eq_none_iff, same, Option.map_eq_none_iff]
    · intro n k x y left right
      have both := same (max n k)
      rw [runSource_kept (Nat.le_max_left n k) left, runSource_kept (Nat.le_max_right n k) right]
        at both
      have moved : x.moved nowhere = y.moved nowhere := Option.some.inj both
      refine ⟨?_, ?_, congrArg Ending.failure moved⟩
      · rw [← x.moved_output (h := nowhere), moved, Ending.moved_output]
      · rw [← x.moved_store (h := nowhere), moved, Ending.moved_store]

theorem layout_keeps_meaning_division :
    let one : List UInt8 := [49, 47, 48, 59]
    let two : List UInt8 := [49, 10, 32, 47, 10, 48, 59]
    let error (place : Position) : RuntimeError := ⟨place, .divisionByZero, "division by zero", ""⟩
    let ending (place : Position) : Ending :=
      ⟨some (.start .empty none), some (.inProgram "p" (.runtime (error place)))⟩
    runSource {} 0 none "p" one = some (ending ⟨0, 1⟩) ∧
    runSource {} 0 none "p" two = some (ending ⟨1, 1⟩) ∧
    (ending ⟨0, 1⟩).failure.map (Failure.moved nowhere) =
      (ending ⟨1, 1⟩).failure.map (Failure.moved nowhere) ∧
    ∃ p q, Parse.source one = .ok p ∧ Parse.source two = .ok q ∧
      Stmt.relabelAll Token.bare p = Stmt.relabelAll Token.bare q := by
  intro one two error ending
  have first : runSource {} 0 none "p" one = some (ending ⟨0, 1⟩) := rfl
  have second : runSource {} 0 none "p" two = some (ending ⟨1, 1⟩) := rfl
  obtain ⟨trees, runs⟩ := layout_keeps_meaning one two _ _ rfl rfl rfl
  obtain ⟨_, _, failures⟩ := (runs {} none "p").2 0 0 _ _ first second
  refine ⟨first, second, failures, ?_⟩
  rcases trees with both | ⟨e, f, failed, _⟩
  · exact both
  · cases failed

end Minilang
