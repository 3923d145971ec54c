import Minilang.Proofs.ViablePrefix

namespace Minilang.Parse

open Reading Grammar

variable {ts us rest : List Token} {e : ParseError} {expected : Expectation}

def reached (ts : List Token) : Nat :=
  ts.length - (statements (fun _ => false) ts).rest.length

theorem stuck_reached (stopped : statements (fun _ => false) ts = stuck expected rest) :
    ts.drop (reached ts) = rest ∧ Awaits Statements (ts.take (reached ts)) expected := by
  obtain ⟨used, split, awaits⟩ := (statements_follows _ ts).awaits stopped
  have here : reached ts = used.length := by
    unfold reached
    rw [stopped, split]
    simp [Reading.rest]
  rw [here, split]
  exact ⟨List.drop_left, by rwa [List.take_left]⟩

theorem rejected_reached (rejected : program ts = .error e) :
    e = .stuckAt ts (ts.drop (reached ts)) e.expected ∧
      Awaits Statements (ts.take (reached ts)) e.expected := by
  obtain ⟨expected, rest, stopped, rfl⟩ := program_error rejected
  obtain ⟨left, awaits⟩ := stuck_reached stopped
  have wanted : (ParseError.stuckAt ts rest expected).expected = expected := by
    cases rest <;> rfl
  rw [wanted, left]
  exact ⟨rfl, awaits⟩

theorem stuckAt_atEnd (ts rest : List Token) (expected : Expectation) :
    (ParseError.stuckAt ts rest expected).atEnd = true ↔ rest = [] := by
  cases rest <;> simp [ParseError.stuckAt]

theorem awaited_viable (awaits : Awaits Statements used expected) (fits : expected.Fits t) :
    Viable (used ++ [t]) := by
  obtain ⟨later, body, derived⟩ := awaits.2 t fits
  exact ⟨later, body, program_read (by simpa using derived)⟩

theorem expectation_truthful (ts : List Token) (e : ParseError) (rejected : program ts = .error e) :
    e = .stuckAt ts (ts.drop (reached ts)) e.expected ∧
    (e.atEnd = true ↔ reached ts = ts.length) ∧
    (∀ text, e.expected = .lexeme text → ∃ kind, (kind, text) ∈ delimiters ∧
      ∀ t, t.is kind text → Viable (ts.take (reached ts) ++ [t])) ∧
    (e.expected = .expression → ∀ t, t.kind = .number ∨ t.kind = .identifier →
      Viable (ts.take (reached ts) ++ [t])) := by
  obtain ⟨told, awaits⟩ := rejected_reached rejected
  refine ⟨told, ?_, ?_, ?_⟩
  · have within : reached ts ≤ ts.length := Nat.sub_le _ _
    rw [told, stuckAt_atEnd, List.drop_eq_nil_iff]
    omega
  · intro text wanted
    rw [wanted] at awaits
    obtain ⟨_, kind, listed, _⟩ := awaits.1
    refine ⟨kind, listed, ?_⟩
    intro t mark
    exact awaited_viable awaits ⟨kind, listed, mark⟩
  · intro wanted t kind
    rw [wanted] at awaits
    exact awaited_viable awaits kind

theorem expectation_truthful_condition :
    let opened : List Token := [⟨.origin, .keyword, "if", none⟩, ⟨⟨0, 2⟩, .paren, "(", none⟩,
      ⟨⟨0, 3⟩, .identifier, "a", none⟩]
    let print : Token := ⟨.origin, .keyword, "print", none⟩
    let mark : Token := ⟨⟨0, 5⟩, .semicolon, ";", none⟩
    program opened = .error ⟨⟨0, 3⟩, .lexeme ")", "end of input", true⟩ ∧
    (∀ t : Token, t.is .paren ")" → Viable (opened ++ [t])) ∧
    program [print, mark] = .error ⟨⟨0, 5⟩, .expression, ";", false⟩ ∧
    ∀ t : Token, t.kind = .number ∨ t.kind = .identifier → Viable [print, t] := by
  intro opened print mark
  refine ⟨rfl, ?_, rfl, ?_⟩
  · obtain ⟨kind, listed, viable⟩ := (expectation_truthful opened _ rfl).2.2.1 ")" rfl
    have paren : kind = .paren := delimiter_kind listed (by simp [delimiters])
    subst paren
    exact viable
  · exact (expectation_truthful [print, mark] _ rfl).2.2.2 rfl

-- Token lists one after the other. The statements of the first one are read as if it stood
-- alone, and then the reader goes on as if the second one did.
theorem statements_behind : Statements used p → ∀ rest,
    statements (fun _ => false) (used ++ rest) = (statements (fun _ => false) rest).map (p ++ ·)
  | .nil, rest => by
    rw [List.nil_append]
    cases statements (fun _ => false) rest <;> rfl
  | .cons first later, rest => by
    have head := statement_read first
    have tail := statements_behind later rest
    obtain ⟨t, others, rfl, _⟩ := first.starts
    rw [List.append_assoc, List.cons_append, statements_cons rfl, ← List.cons_append, head]
    simp only [Reading.andThen, tail]
    cases statements (fun _ => false) rest <;> rfl

theorem stuckAt_behind (filled : us ≠ []) (ts : List Token) :
    ParseError.stuckAt (ts ++ us) rest expected = .stuckAt us rest expected := by
  cases rest with
  | cons t after => rfl
  | nil =>
    have last : (ts ++ us).getLast? = us.getLast? := by
      rw [List.getLast?_append, List.getLast?_eq_some_getLast filled]
      rfl
    simp only [ParseError.stuckAt, last]

theorem program_behind (accepted : program ts = .ok p) (us : List Token) :
    program (ts ++ us) = (program us).map (p ++ ·) := by
  rw [program_eq, program_eq, statements_behind (program_derived accepted)]
  cases read : statements (fun _ => false) us with
  | ok body rest => rfl
  | stuck expected rest =>
    have filled : us ≠ [] := by
      rintro rfl
      cases read
    simp only [Reading.map, Reading.andThen, stuckAt_behind filled]
    rfl

-- A token that was refused is refused whatever follows it.
theorem rejected_final (rejected : program ts = .error e) (inside : e.atEnd = false)
    (us : List Token) : program (ts ++ us) = .error e := by
  obtain ⟨expected, rest, stopped, rfl⟩ := program_error rejected
  cases rest with
  | nil => cases inside
  | cons t after =>
    obtain ⟨used, rfl, _⟩ := stuck_viable stopped
    have refused := (statements_follows _ _).unread stopped rfl (after ++ us)
    rw [program_eq, List.append_assoc, List.cons_append, refused]
    rfl

theorem parsing_composes (ts us : List Token) :
    (∀ p q, program ts = .ok p → program us = .ok q → program (ts ++ us) = .ok (p ++ q)) ∧
    (∀ p e, program ts = .ok p → program us = .error e → program (ts ++ us) = .error e) ∧
    ∀ e, program ts = .error e → e.atEnd = false → program (ts ++ us) = .error e := by
  refine ⟨?_, ?_, ?_⟩
  · intro p q first second
    rw [program_behind first, second]
    rfl
  · intro p e first second
    rw [program_behind first, second]
    rfl
  · intro e rejected inside
    exact rejected_final rejected inside us

theorem parsing_composes_unfinished :
    let one : Token := ⟨.origin, .number, "1", some 1⟩
    let mark : Token := ⟨⟨0, 1⟩, .semicolon, ";", none⟩
    let lone : Token := ⟨⟨1, 0⟩, .number, "2", some 2⟩
    program ([one, mark] ++ [one, mark]) =
      .ok ([.expr (.number one (some 1))] ++ [.expr (.number one (some 1))]) ∧
    program ([one, mark] ++ [lone]) = .error ⟨⟨1, 0⟩, .lexeme ";", "end of input", true⟩ ∧
    program ([mark] ++ [one, mark]) = .error ⟨⟨0, 1⟩, .expression, ";", false⟩ := by
  intro one mark lone
  have alone : program [one, mark] = .ok [.expr (.number one (some 1))] := rfl
  refine ⟨?_, ?_, ?_⟩
  · exact (parsing_composes [one, mark] [one, mark]).1 _ _ alone alone
  · exact (parsing_composes [one, mark] [lone]).2.1 _ _ alone rfl
  · exact (parsing_composes [mark] [one, mark]).2.2 _ rfl rfl

end Minilang.Parse
