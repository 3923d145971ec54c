import Minilang.Failure.Diagnostic
import Minilang.Proofs.SmallStep

namespace Minilang

section Prints

variable {options : RunOptions} {body : List Stmt} {c d : Pending} {m mid : Machine} {value w : Int}
  {rest later ts : List Task}

inductive AtPrint (options : RunOptions) (body : List Stmt) (m : Machine) (value : Int)
    (rest : List Task) : Machine → Prop where
  | intro (path : ComesTo options (.ofProgram body m) ⟨.statement (.print origin e) :: rest, before⟩)
      (found : e.eval options.undefined before.store = (.ok value, store)) :
      AtPrint options body m value rest { before.enter options (.print origin e) with store := store }

-- A value is written as soon as it is known, so nothing stands before it.
def Pending.Prompt (c : Pending) : Prop := ∀ value, Task.write value ∉ c.tasks.tail

theorem write_not_mem_statements (w : Int) (body : List Stmt) :
    Task.write w ∉ body.map Task.statement := by
  simp

theorem write_not_mem_roundTasks (w : Int) (e : Expr) (body : List Stmt) (value : Int) :
    Task.write w ∉ roundTasks e body value := by
  unfold roundTasks
  split <;> simp

theorem Stmt.write_mem_nextTasks {s : Stmt} (member : Task.write w ∈ s.nextTasks value) :
    w = value ∧ s.nextTasks value = [.write value] ∧ ∃ origin e, s = .print origin e := by
  cases s with
  | expr e => cases member
  | branch origin e body =>
    simp only [Stmt.nextTasks] at member
    split at member
    · exact absurd member (write_not_mem_statements w body)
    · cases member
  | loop origin e body => exact absurd member (write_not_mem_roundTasks w e body value)
  | print origin e =>
    cases List.mem_singleton.mp member
    exact ⟨rfl, rfl, origin, e, rfl⟩

theorem mem_tail_append {t : Task} (member : t ∈ (ts ++ rest).tail) : t ∈ ts.tail ∨ t ∈ rest := by
  cases ts with
  | nil => exact .inr (List.mem_of_mem_tail member)
  | cons first ts => exact List.mem_append.mp member

theorem Next.prompt (step : Next options c d) (prompt : c.Prompt) : d.Prompt := by
  intro w member
  cases step with
  | statement found =>
    rcases mem_tail_append member with own | after
    · obtain ⟨-, alone, -⟩ := Stmt.write_mem_nextTasks (List.mem_of_mem_tail own)
      rw [alone] at own
      cases own
    · exact prompt w after
  | round found =>
    rcases mem_tail_append member with own | after
    · exact write_not_mem_roundTasks w _ _ _ (List.mem_of_mem_tail own)
    · exact prompt w after
  | write written => exact prompt w (List.mem_of_mem_tail member)

theorem ComesTo.prompt (path : ComesTo options (.ofProgram body m) c) : c.Prompt := by
  induction path with
  | refl => exact fun w member => write_not_mem_statements w body (List.mem_of_mem_tail member)
  | tail _ step ih => exact step.prompt ih

theorem write_first (waiting : ∀ w, Task.write w ∉ later)
    (same : Task.write value :: rest = ts ++ later) : Task.write value ∈ ts := by
  have member : Task.write value ∈ ts ++ later := by
    rw [← same]
    exact List.mem_cons_self
  exact (List.mem_append.mp member).resolve_right (waiting value)

theorem ComesTo.atPrint (path : ComesTo options (.ofProgram body m) ⟨.write value :: rest, mid⟩) :
    AtPrint options body m value rest mid := by
  rcases path.cases_tail with same | ⟨c, prior, step⟩
  · have tasks : Task.write value :: rest = body.map Task.statement := congrArg Pending.tasks same
    have member := tasks ▸ List.mem_cons_self
    exact absurd member (write_not_mem_statements value body)
  · have prompt := ComesTo.prompt prior
    generalize target : (⟨.write value :: rest, mid⟩ : Pending) = d at step
    cases step with
    | statement found =>
      obtain ⟨tasks, rfl⟩ := Pending.mk.inj target
      obtain ⟨rfl, -, origin, e, rfl⟩ := Stmt.write_mem_nextTasks (write_first prompt tasks)
      obtain rfl : rest = _ := (List.cons.inj tasks).2
      exact .intro prior found
    | round found =>
      obtain ⟨tasks, -⟩ := Pending.mk.inj target
      exact absurd (write_first prompt tasks) (write_not_mem_roundTasks value _ _ _)
    | write written =>
      obtain ⟨tasks, -⟩ := Pending.mk.inj target
      subst tasks
      exact absurd List.mem_cons_self (prompt value)

end Prints

def Machine.limited (sink : Sink) (m : Machine) : Machine :=
  { m with sink := some ⟨sink.room - m.printed.size, sink.error⟩ }

def Pending.limited (sink : Sink) (c : Pending) : Pending := ⟨c.tasks, c.machine.limited sink⟩

-- Where the run with a limited output stands when the other run stands at c: at the same
-- point, or at the print that found the output full.
inductive Cut (options : RunOptions) (sink : Sink) (start : Pending) : Pending → Prop where
  | within (few : c.machine.printed.size ≤ sink.room)
      (path : ComesTo options (start.limited sink) (c.limited sink)) : Cut options sink start c
  | beyond (path : ComesTo options start ⟨.write value :: rest, mid⟩)
      (full : mid.printed.size = sink.room)
      (cut : ComesTo options (start.limited sink) ⟨.write value :: rest, mid.limited sink⟩)
      (ahead : mid.printed.toList ++ [value] <+: c.machine.printed.toList) : Cut options sink start c

section Limit

variable {options : RunOptions} {n : Nat} {sink : Sink} {c d start : Pending} {m mid after : Machine}
  {value : Int} {rest : List Task} {body : List Stmt} {outcome : Option Fault} {store : Store}

@[simp]
theorem Machine.limited_enter (sink : Sink) (options : RunOptions) (s : Stmt) (m : Machine) :
    (m.limited sink).enter options s = (m.enter options s).limited sink := by
  unfold enter record
  split
  · split <;> rfl
  · rfl

@[simp]
theorem Machine.enter_printed (options : RunOptions) (s : Stmt) (m : Machine) :
    (m.enter options s).printed = m.printed := by
  obtain ⟨trace, same⟩ := m.enter_eq options s
  rw [same]

theorem Machine.print_unlimited (free : m.sink = none) (value : Int) :
    m.print value = .ok { m with printed := m.printed.push value } := by
  rw [print, free]

theorem Machine.limited_print (few : m.printed.size < sink.room) (value : Int) :
    (m.limited sink).print value = .ok ({ m with printed := m.printed.push value }.limited sink) := by
  obtain ⟨k, room⟩ : ∃ k, sink.room - m.printed.size = k + 1 :=
    ⟨sink.room - m.printed.size - 1, by omega⟩
  have less : sink.room - (m.printed.size + 1) = k := by omega
  simp only [print, limited, room, Array.size_push, less]

theorem Machine.limited_full (full : m.printed.size = sink.room) (value : Int) :
    (m.limited sink).print value = .error sink.error := by
  simp only [print, limited, full, Nat.sub_self]

theorem Next.steps (step : Next options c d) : ∃ es, Steps options es c.machine d.machine := by
  cases step with
  | @statement store s rest m value found =>
    rw [← Machine.enter_store options s m] at found
    refine ⟨[s.operand], .tail (.single (.enter s)) ?_⟩
    exact .evaluate (List.mem_singleton_self _) found
  | round found => exact ⟨_, .single (.evaluate (List.mem_singleton_self _) found)⟩
  | write written => exact ⟨[], .single (.print written)⟩

theorem ComesTo.unlimited (path : ComesTo options c d) (free : c.machine.sink = none) :
    d.machine.sink = none := by
  induction path with
  | refl => exact free
  | tail _ step ih =>
    obtain ⟨es, steps⟩ := step.steps
    exact steps.unlimited ih

-- The two runs go on together until a write finds the output full; from there on only the
-- unlimited one does.
theorem Cut.next (cut : Cut options sink start c) (path : ComesTo options start c)
    (free : c.machine.sink = none) (step : Next options c d) : Cut options sink start d := by
  cases cut with
  | within few limited =>
    cases step with
    | @statement store s rest m value found =>
      refine .within (by rwa [Machine.enter_printed]) (limited.tail ?_)
      have step : Next options ⟨.statement s :: rest, m.limited sink⟩ _ := .statement found
      rwa [Machine.limited_enter] at step
    | round found => exact .within few (limited.tail (.round found))
    | @write value rest m after written =>
      rw [Machine.print_unlimited free] at written
      cases written
      rcases Nat.lt_or_eq_of_le few with fewer | full
      · have fits : (m.printed.push value).size ≤ sink.room := by
          rw [Array.size_push]
          exact fewer
        exact .within fits (limited.tail (.write (Machine.limited_print fewer value)))
      · exact .beyond path full limited (by simp)
  | beyond before full limited ahead =>
    obtain ⟨es, steps⟩ := step.steps
    exact .beyond before full limited (ahead.trans steps.printed)

theorem ComesTo.cut (path : ComesTo options start c) (free : start.machine.sink = none)
    (few : start.machine.printed.size ≤ sink.room) : Cut options sink start c := by
  induction path with
  | refl => exact .within few .refl
  | tail prior step ih => exact ih.next prior (ComesTo.unlimited prior free) step

theorem Halts.printed (halts : Halts options c outcome after) :
    after.printed = c.machine.printed := by
  cases halts with
  | done | round | write => rfl
  | statement failed => exact Machine.enter_printed options _ _

theorem Halts.limited (halts : Halts options c outcome after) (free : c.machine.sink = none) :
    Halts options (c.limited sink) outcome (after.limited sink) := by
  cases halts with
  | done => exact .done
  | @statement store s rest m fault failed =>
    have halts : Halts options ⟨.statement s :: rest, m.limited sink⟩ _ _ := .statement failed
    rwa [Machine.limited_enter] at halts
  | round failed => exact .round failed
  | write closed =>
    rw [Machine.print_unlimited free] at closed
    cases closed

theorem Ends.cut (ran : Ends options body (.start store none) outcome after)
    (sink : Sink) :
    (after.printed.size ≤ sink.room ∧
      Ends options body (.start store (some sink)) outcome (after.limited sink)) ∨
    ∃ value rest mid,
      ComesTo options (.ofProgram body (.start store none)) ⟨.write value :: rest, mid⟩ ∧
      ComesTo options (.ofProgram body (.start store (some sink)))
        ⟨.write value :: rest, mid.limited sink⟩ ∧
      mid.printed.size = sink.room ∧ mid.printed.toList ++ [value] <+: after.printed.toList := by
  obtain ⟨c, path, halts⟩ := ends_stepwise.mp ran
  rw [halts.printed]
  cases path.cut rfl (Nat.zero_le sink.room) with
  | within few limited =>
    exact .inl ⟨few, ends_stepwise.mpr ⟨_, limited, halts.limited (path.unlimited rfl)⟩⟩
  | beyond before full limited ahead => exact .inr ⟨_, _, _, before, limited, full, ahead⟩

theorem outputLines_cut (full : mid.printed.size = n)
    (ahead : mid.printed.toList ++ [value] <+: after.printed.toList) :
    n < after.outputLines.length ∧ mid.outputLines = after.outputLines.take n ∧
      after.outputLines[n]? = some (decimal value) := by
  obtain ⟨others, whole⟩ := ahead
  have lines : after.outputLines = mid.outputLines ++ decimal value :: others.map decimal := by
    rw [Machine.outputLines, ← whole]
    simp [Machine.outputLines]
  have length : mid.outputLines.length = n := by
    simp [Machine.outputLines, full]
  rw [lines, ← length]
  simp

theorem Failure.message_closedOutput (error : String) :
    (ofFault (.closedOutput error)).message = "interpreter: write output: " ++ error := by
  rw [show "interpreter: write output: " = "interpreter: write output" ++ ": " by decide]
  rfl

theorem closed_output_truncates (ran : Ends options body (.start store none) outcome after)
    (sink : Sink) :
    (after.outputLines.length ≤ sink.room →
      Ends options body (.start store (some sink)) outcome (after.limited sink)) ∧
    (sink.room < after.outputLines.length → ∃ value rest mid,
      AtPrint options body (.start store none) value rest mid ∧
      mid.outputLines = after.outputLines.take sink.room ∧
      after.outputLines[sink.room]? = some (decimal value) ∧
      AtPrint options body (.start store (some sink)) value rest (mid.limited sink) ∧
      Ends options body (.start store (some sink)) (some (.closedOutput sink.error))
        (mid.limited sink)) ∧
    (Failure.ofFault (.closedOutput sink.error)).message =
      "interpreter: write output: " ++ sink.error ∧
    (Failure.ofFault (.closedOutput sink.error)).stage = .unknown := by
  have size : after.outputLines.length = after.printed.size := by
    simp [Machine.outputLines]
  refine ⟨?_, ?_, Failure.message_closedOutput sink.error, rfl⟩
  · intro few
    rcases ran.cut sink with ⟨-, same⟩ | ⟨value, rest, mid, -, -, full, ahead⟩
    · exact same
    · exact absurd (outputLines_cut full ahead).1 (Nat.not_lt.mpr few)
  · intro many
    rcases ran.cut sink with ⟨few, -⟩ | ⟨value, rest, mid, path, limited, full, ahead⟩
    · exact absurd (size ▸ few) (Nat.not_le.mpr many)
    · obtain ⟨-, taken, line⟩ := outputLines_cut full ahead
      have ends : Ends options body (.start store (some sink)) (some (.closedOutput sink.error))
          (mid.limited sink) :=
        ends_stepwise.mpr ⟨_, limited, .write (Machine.limited_full full value)⟩
      exact ⟨value, rest, mid, path.atPrint, taken, line, limited.atPrint, ends⟩

def counting : List Stmt :=
  let x : Expr := .ident default "x"
  let number (value : Int) : Expr := .number default (some value)
  [.loop default (.binary default "-" (number 2) x)
    [.print default (.assign default (some ⟨default, "x"⟩) (.binary default "+" x (number 1)))],
    .print default (number 9)]

theorem closed_output_truncates_counting :
    let begins (sink : Option Sink) : Machine := .start (.ofBindings [("x", 0)]) sink
    let after (sink : Option Sink) : Machine := ⟨.ofBindings [("x", 2)], #[1, 2, 9], #[], sink⟩
    Ends {} counting (begins none) none (after none) ∧
    Ends {} counting (begins (some ⟨5, "full"⟩)) none (after (some ⟨2, "full"⟩)) ∧
    ∃ value rest, ∃ mid : Machine, AtPrint {} counting (begins none) value rest mid ∧
      mid.outputLines = ["1"] ∧ decimal value = "2" ∧ mid.store = .ofBindings [("x", 2)] ∧
      Ends {} counting (begins (some ⟨1, "full"⟩)) (some (.closedOutput "full"))
        (mid.limited ⟨1, "full"⟩) ∧
      (Failure.ofFault (.closedOutput "full")).message = "interpreter: write output: full" := by
  intro begins after
  have ran : Ends {} counting (begins none) none (after none) := ⟨3, rfl⟩
  have stopped : Ends {} counting (begins (some ⟨1, "full"⟩)) (some (.closedOutput "full"))
      ⟨.ofBindings [("x", 2)], #[1], #[], some ⟨0, "full"⟩⟩ := ⟨2, rfl⟩
  have lines : (after none).outputLines = ["1", "2", "9"] := rfl
  refine ⟨ran, (closed_output_truncates ran ⟨5, "full"⟩).1 (by simp [lines]), ?_⟩
  obtain ⟨-, cut, message, -⟩ := closed_output_truncates ran ⟨1, "full"⟩
  obtain ⟨value, rest, mid, path, taken, line, -, ends⟩ := cut (by simp [lines])
  obtain ⟨-, same⟩ := ends.unique stopped
  rw [lines] at taken line
  exact ⟨value, rest, mid, path, taken, (Option.some.inj line).symm, congrArg Machine.store same,
    ends, message⟩

end Limit

end Minilang
