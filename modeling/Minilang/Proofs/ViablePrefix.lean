import Minilang.Proofs.GrammarExact

namespace Minilang.Parse

open Reading Grammar

variable {ts used rest : List Token}

def Accepted (ts : List Token) : Prop := ∃ body, program ts = .ok body

def Viable (ts : List Token) : Prop := ∃ later, Accepted (ts ++ later)

theorem Viable.ofAppend (viable : Viable (used ++ rest)) : Viable used := by
  obtain ⟨later, accepted⟩ := viable
  exact ⟨rest ++ later, by simpa using accepted⟩

theorem program_error (rejected : program ts = .error e) :
    ∃ expected rest, statements (fun _ => false) ts = stuck expected rest ∧
      e = .stuckAt ts rest expected := by
  rw [program_eq] at rejected
  split at rejected
  · cases rejected
  · rename_i expected rest stopped
    cases rejected
    exact ⟨expected, rest, stopped, rfl⟩

theorem stuck_viable (stopped : statements (fun _ => false) ts = stuck expected rest) :
    ∃ used, ts = used ++ rest ∧ Viable used := by
  obtain ⟨used, split, ⟨t, fits⟩, awaits⟩ := (statements_follows _ ts).awaits stopped
  obtain ⟨later, body, derived⟩ := awaits t fits
  exact ⟨used, split, t :: later, body, program_read derived⟩

-- A token that the reader refuses is refused whatever follows it.
theorem stuck_hopeless
    (stopped : statements (fun _ => false) (used ++ t :: rest) = stuck expected (t :: rest)) :
    ¬Viable (used ++ [t]) := by
  rintro ⟨later, body, accepted⟩
  have refused := (statements_follows _ _).unread stopped rfl later
  have read := program_ok accepted
  rw [List.append_assoc, List.singleton_append, refused] at read
  cases read

theorem rejected_inside (rejected : program ts = .error e) (inside : e.atEnd = false) :
    ∃ k t, ts[k]? = some t ∧ Viable (ts.take k) ∧ ¬Viable (ts.take (k + 1)) ∧
      e.position = t.position ∧ e.found = t.lexeme := by
  obtain ⟨expected, rest, stopped, rfl⟩ := program_error rejected
  cases rest with
  | nil => cases inside
  | cons t after =>
    obtain ⟨used, rfl, viable⟩ := stuck_viable stopped
    have refused : (used ++ t :: after).take (used.length + 1) = used ++ [t] := by
      rw [← List.singleton_append, ← List.append_assoc]
      exact List.take_left' (by simp)
    refine ⟨used.length, t, by simp, by simpa using viable, ?_, rfl, rfl⟩
    rw [refused]
    exact stuck_hopeless stopped

theorem rejected_at_end (rejected : program ts = .error e) (ended : e.atEnd = true) :
    Viable ts ∧ ∃ last, ts.getLast? = some last ∧ e.position = last.position := by
  obtain ⟨expected, rest, stopped, rfl⟩ := program_error rejected
  cases rest with
  | cons t after => cases ended
  | nil =>
    obtain ⟨used, rfl, viable⟩ := stuck_viable stopped
    cases last : used.getLast? with
    | none =>
      have empty := List.getLast?_eq_none_iff.mp last
      subst empty
      cases stopped
    | some t =>
      refine ⟨by simpa using viable, t, by simpa using last, ?_⟩
      simp [ParseError.stuckAt, last]

theorem viable_rejected_at_end (viable : Viable ts) (rejected : program ts = .error e) :
    e.atEnd = true := by
  cases inside : e.atEnd with
  | true => rfl
  | false =>
    obtain ⟨k, t, _, _, hopeless, _⟩ := rejected_inside rejected inside
    rw [← List.take_append_drop (k + 1) ts] at viable
    exact absurd viable.ofAppend hopeless

theorem rejection_earliest (ts : List Token) :
    (∀ e, program ts = .error e →
      (e.atEnd = false → ∃ k t, ts[k]? = some t ∧ Viable (ts.take k) ∧ ¬Viable (ts.take (k + 1)) ∧
        e.position = t.position ∧ e.found = t.lexeme) ∧
      (e.atEnd = true → Viable ts ∧ ¬Accepted ts ∧
        ∃ last, ts.getLast? = some last ∧ e.position = last.position)) ∧
    ((∃ e, program ts = .error e ∧ e.atEnd = true) ↔
      (∃ later, later ≠ [] ∧ Accepted (ts ++ later)) ∧ ¬Accepted ts) := by
  have refused {e} (rejected : program ts = .error e) : ¬Accepted ts := by
    rintro ⟨body, accepted⟩
    cases accepted.symm.trans rejected
  refine ⟨?_, ?_, ?_⟩
  · intro e rejected
    refine ⟨rejected_inside rejected, fun ended => ?_⟩
    obtain ⟨viable, last⟩ := rejected_at_end rejected ended
    exact ⟨viable, refused rejected, last⟩
  · rintro ⟨e, rejected, ended⟩
    obtain ⟨⟨later, accepted⟩, _⟩ := rejected_at_end rejected ended
    refine ⟨⟨later, ?_, accepted⟩, refused rejected⟩
    rintro rfl
    exact refused rejected (by simpa using accepted)
  · rintro ⟨⟨later, _, accepted⟩, unaccepted⟩
    cases result : program ts with
    | ok body => exact absurd ⟨body, result⟩ unaccepted
    | error e => exact ⟨e, rfl, viable_rejected_at_end ⟨later, accepted⟩ result⟩

theorem rejection_earliest_print :
    let print : Token := ⟨.origin, .keyword, "print", none⟩
    let semicolon : Token := ⟨⟨0, 5⟩, .semicolon, ";", none⟩
    (∃ k t, [print, semicolon][k]? = some t ∧ Viable ([print, semicolon].take k) ∧
      ¬Viable ([print, semicolon].take (k + 1)) ∧ t.position = ⟨0, 5⟩ ∧ t.lexeme = ";") ∧
    Viable [print] ∧ ¬Accepted [print] := by
  intro print semicolon
  constructor
  · obtain ⟨k, t, found, viable, hopeless, place, text⟩ :=
      ((rejection_earliest [print, semicolon]).1 _ rfl).1 rfl
    exact ⟨k, t, found, viable, hopeless, place.symm, text.symm⟩
  · obtain ⟨viable, unaccepted, _⟩ := ((rejection_earliest [print]).1 _ rfl).2 rfl
    exact ⟨viable, unaccepted⟩

end Minilang.Parse
