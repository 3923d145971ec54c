import Minilang.Failure.Diagnostic

namespace Minilang

inductive Wrapping where
  | program (path : String)
  | context (text : String)
deriving DecidableEq

namespace Wrapping

def around : Wrapping → Failure → Failure
  | program path, inner => .inProgram path inner
  | context text, inner => .context text inner

def path? : Wrapping → Option String
  | program path => some path
  | context _ => none

def lead : Wrapping → String
  | program path => if path = "" then "" else path ++ ": "
  | context text => text ++ ": "

end Wrapping

-- The marks that unwrapping comes to behind an error of reading or running.
inductive Sentinel where
  | lex
  | parse
  | runtime
deriving DecidableEq

inductive Link where
  | failure (f : Failure)
  | sentinel (mark : Sentinel)
deriving DecidableEq

namespace Failure

def wrapped (layers : List Wrapping) (cause : Failure) : Failure :=
  layers.foldr Wrapping.around cause

def Bare : Failure → Prop
  | inProgram _ _ => False
  | context _ _ => False
  | _ => True

def ownStage : Failure → Option Stage
  | lex _ => some .lex
  | parse _ => some .parse
  | runtime _ => some .runtime
  | internal _ => some .internal
  | _ => none

def foundStage (f : Failure) : Stage :=
  ([Stage.lex, .parse, .runtime, .internal].find? fun stage =>
    f.chain.any fun link => link.ownStage == some stage).getD .unknown

def ownPath? : Failure → Option String
  | inProgram path _ => some path
  | _ => none

def ownDiagnostic (path : String) : Failure → Option Diagnostic
  | lex e => some ⟨.lex, e.detail, path, e.position.row + 1, e.position.column + 1⟩
  | parse e => some ⟨.parse, e.detail, path, e.position.row + 1, e.position.column + 1⟩
  | runtime e => some ⟨.runtime, e.detail, path, e.position.row + 1, e.position.column + 1⟩
  | internal node => some ⟨.internal, internalMessage node, path, 0, 0⟩
  | _ => none

-- The first of the stages that a link belongs to, and the first link of that stage, in the first
-- program of the chain.
def foundDiagnostic (f : Failure) : Option Diagnostic :=
  [Stage.lex, .parse, .runtime, .internal].findSome? fun stage =>
    (f.chain.find? fun link => link.ownStage == some stage).bind
      (ownDiagnostic ((f.chain.findSome? ownPath?).getD ""))

-- The chain with the mark behind its last failure.
def links : Failure → List Link
  | inProgram path inner => .failure (inProgram path inner) :: inner.links
  | context text inner => .failure (context text inner) :: inner.links
  | lex e => [.failure (lex e), .sentinel .lex]
  | parse e => [.failure (parse e), .sentinel .parse]
  | runtime e => [.failure (runtime e), .sentinel .runtime]
  | leaf => [.failure leaf]

def bears (f : Failure) (mark : Sentinel) : Bool := f.links.any (· == .sentinel mark)

inductive Explained : Failure → Stage → String → Int → Int → Prop where
  | lex : Explained (.lex e) .lex e.detail (e.position.row + 1) (e.position.column + 1)
  | parse : Explained (.parse e) .parse e.detail (e.position.row + 1) (e.position.column + 1)
  | runtime : Explained (.runtime e) .runtime e.detail (e.position.row + 1) (e.position.column + 1)
  | internal : Explained (.internal node) .internal (Failure.internal node).message 0 0

variable {cause : Failure} {layers : List Wrapping}

theorem Bare.root (bare : cause.Bare) : cause.root = cause := by
  cases cause with
  | inProgram | context => cases bare
  | _ => rfl

theorem Bare.programPath (bare : cause.Bare) : cause.programPath = "" := by
  cases cause with
  | inProgram | context => cases bare
  | _ => rfl

theorem Bare.chain (bare : cause.Bare) : cause.chain = [cause] := by
  cases cause with
  | inProgram | context => cases bare
  | _ => rfl

theorem root_wrapped (bare : cause.Bare) : (cause.wrapped layers).root = cause := by
  induction layers with
  | nil => exact bare.root
  | cons layer layers ih => cases layer <;> exact ih

theorem programPath_wrapped (bare : cause.Bare) :
    (cause.wrapped layers).programPath = (layers.findSome? Wrapping.path?).getD "" := by
  induction layers with
  | nil => exact bare.programPath
  | cons layer layers ih =>
    cases layer with
    | program path => rfl
    | context text => exact ih

theorem message_wrapped :
    (cause.wrapped layers).message = String.join (layers.map Wrapping.lead) ++ cause.message := by
  induction layers with
  | nil => rw [List.map_nil, String.join_nil, String.empty_append]; rfl
  | cons layer layers ih =>
    rw [List.map_cons, String.join_cons, String.append_assoc, ← ih]
    cases layer with
    | program path =>
      show (if path = "" then (cause.wrapped layers).message else _) = (if path = "" then _ else _) ++ _
      split
      · rw [String.empty_append]
      · rfl
    | context text => rfl

@[simp]
theorem chain_around (layer : Wrapping) (inner : Failure) :
    (layer.around inner).chain = layer.around inner :: inner.chain := by
  cases layer <;> rfl

-- A search looks at every link. What wrappings do not satisfy, only the cause can.
theorem find?_chain (p : Failure → Bool) (bare : cause.Bare)
    (layered : ∀ (layer : Wrapping) inner, p (layer.around inner) = false) :
    (cause.wrapped layers).chain.find? p = [cause].find? p := by
  induction layers with
  | nil => exact congrArg (List.find? p) bare.chain
  | cons layer layers ih =>
    show (layer.around (cause.wrapped layers)).chain.find? p = _
    rw [chain_around, List.find?_cons, layered]
    exact ih

theorem any_chain (p : Failure → Bool) (bare : cause.Bare)
    (layered : ∀ (layer : Wrapping) inner, p (layer.around inner) = false) :
    (cause.wrapped layers).chain.any p = p cause := by
  rw [← List.isSome_find?, find?_chain p bare layered, List.isSome_find?, List.any_cons,
    List.any_nil, Bool.or_false]

theorem findSome?_ownPath (bare : cause.Bare) :
    (cause.wrapped layers).chain.findSome? ownPath? = layers.findSome? Wrapping.path? := by
  induction layers with
  | nil =>
    show cause.chain.findSome? ownPath? = none
    rw [bare.chain]
    cases cause with
    | inProgram | context => cases bare
    | _ => rfl
  | cons layer layers ih =>
    show (layer.around (cause.wrapped layers)).chain.findSome? ownPath? = _
    rw [chain_around]
    cases layer with
    | program path => rfl
    | context text => exact ih

@[simp]
theorem ownStage_around (layer : Wrapping) (inner : Failure) :
    (layer.around inner).ownStage = none := by
  cases layer <;> rfl

theorem foundStage_wrapped (bare : cause.Bare) :
    (cause.wrapped layers).foundStage = cause.stage := by
  have only (stage : Stage) :
      ((cause.wrapped layers).chain.any fun link => link.ownStage == some stage) =
        (cause.ownStage == some stage) :=
    any_chain _ bare fun layer inner => by rw [ownStage_around]; rfl
  unfold foundStage stage
  simp only [only, bare.root]
  cases cause <;> rfl

theorem foundDiagnostic_wrapped (bare : cause.Bare) :
    (cause.wrapped layers).foundDiagnostic = (cause.wrapped layers).diagnose := by
  have only (stage : Stage) :
      ((cause.wrapped layers).chain.find? fun link => link.ownStage == some stage) =
        [cause].find? fun link => link.ownStage == some stage :=
    find?_chain _ bare fun layer inner => by rw [ownStage_around]; rfl
  unfold foundDiagnostic diagnose
  simp only [only, findSome?_ownPath bare, root_wrapped bare, programPath_wrapped bare]
  cases cause <;> rfl

theorem bears_wrapped (mark : Sentinel) : (cause.wrapped layers).bears mark = cause.bears mark := by
  induction layers with
  | nil => rfl
  | cons layer layers ih =>
    rw [← ih]
    cases layer <;> rfl

theorem stage_wrapped (bare : cause.Bare) : (cause.wrapped layers).stage = cause.stage := by
  unfold stage
  rw [root_wrapped bare, bare.root]

theorem marks_wrapped (layers : List Wrapping) (bare : cause.Bare) :
    (cause.wrapped layers).isLex = cause.isLex ∧ (cause.wrapped layers).isParse = cause.isParse ∧
      (cause.wrapped layers).isRuntime = cause.isRuntime := by
  unfold isLex isParse isRuntime
  rw [any_chain _ bare (by intro layer _; cases layer <;> rfl),
    any_chain _ bare (by intro layer _; cases layer <;> rfl),
    any_chain _ bare (by intro layer _; cases layer <;> rfl), bare.chain]
  simp

theorem marks_found (layers : List Wrapping) (bare : cause.Bare) :
    (cause.wrapped layers).isLex = (cause.wrapped layers).bears .lex ∧
      (cause.wrapped layers).isParse = (cause.wrapped layers).bears .parse ∧
      (cause.wrapped layers).isRuntime = (cause.wrapped layers).bears .runtime := by
  obtain ⟨lexical, syntactic, atRun⟩ := marks_wrapped layers bare
  rw [lexical, syntactic, atRun, bears_wrapped, bears_wrapped, bears_wrapped]
  cases cause with
  | inProgram | context => cases bare
  | _ => exact ⟨rfl, rfl, rfl⟩

-- The labels of the stages are different texts.
theorem marks_stage (layers : List Wrapping) (bare : cause.Bare) :
    ((cause.wrapped layers).isLex ↔ cause.stage = .lex) ∧
      ((cause.wrapped layers).isParse ↔ cause.stage = .parse) ∧
      ((cause.wrapped layers).isRuntime ↔ cause.stage = .runtime) := by
  obtain ⟨lexical, syntactic, atRun⟩ := marks_wrapped layers bare
  rw [lexical, syntactic, atRun, isLex, isParse, isRuntime, stage, bare.root, bare.chain]
  cases cause <;> simp [Stage.lex, Stage.parse, Stage.runtime, Stage.internal, Stage.unknown]

theorem diagnose_isSome (bare : cause.Bare) :
    (cause.wrapped layers).diagnose.isSome ↔ cause.stage ≠ .unknown := by
  unfold diagnose stage
  rw [root_wrapped bare, bare.root]
  cases cause <;> simp [Stage.lex, Stage.parse, Stage.runtime, Stage.internal, Stage.unknown]

theorem Explained.stage {shown : Stage} {text : String}
    (explained : Explained cause shown text line column) : cause.stage = shown := by
  cases explained <;> rfl

theorem diagnose_wrapped (bare : cause.Bare) (d : Diagnostic) :
    (cause.wrapped layers).diagnose = some d ↔
      Explained cause d.stage d.message d.line d.column ∧
        d.path = (layers.findSome? Wrapping.path?).getD "" := by
  unfold diagnose
  rw [root_wrapped bare, programPath_wrapped bare]
  constructor
  · intro shown
    cases cause with
    | lex | parse | runtime | internal =>
      cases shown
      exact ⟨by constructor, rfl⟩
    | inProgram | context => cases bare
    | _ => cases shown
  · rintro ⟨explained, path⟩
    obtain ⟨stage, message, place, line, column⟩ := d
    cases path
    cases explained <;> rfl

theorem failures_classified (f cause : Failure) (layers : List Wrapping) (bare : cause.Bare)
    (made : f = cause.wrapped layers) :
    f.stage = cause.stage ∧ f.stage = f.foundStage ∧ f.diagnose = f.foundDiagnostic ∧
      f.isLex = f.bears .lex ∧ f.isParse = f.bears .parse ∧ f.isRuntime = f.bears .runtime ∧
      (f.diagnose.isSome ↔ f.stage ≠ .unknown) ∧
      (∀ d, f.diagnose = some d → d.stage = f.stage) ∧
      (∀ d, f.diagnose = some d ↔
        Explained cause d.stage d.message d.line d.column ∧
          d.path = (layers.findSome? Wrapping.path?).getD "") ∧
      (f.isLex ↔ f.stage = .lex) ∧ (f.isParse ↔ f.stage = .parse) ∧
      (f.isRuntime ↔ f.stage = .runtime) ∧
      (f.diagnose = none →
        f.describe = f.message ∧
          f.message = String.join (layers.map Wrapping.lead) ++ cause.message) := by
  subst made
  obtain ⟨lexical, syntactic, atRun⟩ := marks_stage layers bare
  obtain ⟨lexFound, parseFound, runtimeFound⟩ := marks_found layers bare
  rw [stage_wrapped bare]
  refine ⟨rfl, (foundStage_wrapped bare).symm, (foundDiagnostic_wrapped bare).symm, lexFound,
    parseFound, runtimeFound, diagnose_isSome bare, ?_, diagnose_wrapped bare, lexical, syntactic,
    atRun, ?_⟩
  · intro d shown
    exact ((diagnose_wrapped bare d).mp shown).1.stage.symm
  · intro hidden
    refine ⟨?_, message_wrapped⟩
    unfold describe
    rw [hidden]

def nestedCause : Failure := .parse ⟨⟨1, 4⟩, .lexeme ";", "print", false⟩

theorem failures_classified_nested :
    let f := Failure.context "load"
      (.inProgram "outer" (.context "run" (.inProgram "inner" nestedCause)))
    f.stage = .parse ∧ f.isParse ∧ f.bears .parse ∧
      ∃ message, f.diagnose = some ⟨.parse, message, "outer", 2, 5⟩ := by
  obtain ⟨stage, _, _, _, found, _, _, _, shown, _, syntactic, _⟩ :=
    failures_classified _ nestedCause
      [.context "load", .program "outer", .context "run", .program "inner"] trivial rfl
  have marked := syntactic.mpr stage
  exact ⟨stage, marked, found ▸ marked, _, (shown _).mpr ⟨.parse, rfl⟩⟩

end Failure

end Minilang
