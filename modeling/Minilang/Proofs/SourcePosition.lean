import Minilang.Proofs.Lexeme

namespace Minilang

open Alphabet

def Cursor.lineLength (passed : List UInt8) : Nat := (passed.takeWhile (· != newline)).length

def Position.behind (passed : List UInt8) : Position :=
  ⟨passed.count newline, Cursor.lineLength passed.reverse⟩

def Position.Denotes (p : Position) (source : List UInt8) (offset : Nat) : Prop :=
  offset < source.length ∧ p = .behind (source.take offset)

namespace Position

theorem behind_newline (passed : List UInt8) :
    behind (passed ++ [newline]) = (behind passed).nextRow := by
  simp [behind, nextRow, Cursor.lineLength]

theorem behind_byte {b : UInt8} (other : b ≠ newline) (passed : List UInt8) :
    behind (passed ++ [b]) = (behind passed).right 1 := by
  simp [behind, right, Cursor.lineLength, other]

theorem behind_run {run : List UInt8} (inside : ∀ b ∈ run, b ≠ newline) (passed : List UInt8) :
    behind (passed ++ run) = (behind passed).right run.length := by
  induction run generalizing passed with
  | nil => simp [right]
  | cons b run ih =>
    obtain ⟨other, later⟩ := List.forall_mem_cons.mp inside
    rw [← List.singleton_append, ← List.append_assoc, ih later, behind_byte other,
      Token.right_right, List.length_append, List.length_singleton]

theorem behind_denotes (passed : List UInt8) (filled : rest ≠ []) :
    (behind passed).Denotes (passed ++ rest) passed.length := by
  refine ⟨?_, by rw [List.take_left]⟩
  rw [List.length_append]
  have := List.length_pos_iff.mpr filled
  omega

theorem Denotes.least (denotes : Denotes p source offset) : 0 ≤ p.row ∧ 0 ≤ p.column := by
  rw [denotes.2]
  exact ⟨Int.natCast_nonneg _, Int.natCast_nonneg _⟩

end Position

namespace Token

theorem Spelled.no_newline (spelled : Spelled bs t) : ∀ b ∈ bs, b ≠ newline := by
  cases spelled with
  | number inside =>
    rintro _ member rfl
    exact absurd (inside _ member) (by decide)
  | word inside =>
    rintro _ member rfl
    exact absurd (inside _ member) (by decide)
  | single known =>
    have each : ∀ s ∈ singles, s.1 ≠ newline := by decide
    simpa using each _ known

theorem Spelled.filled (spelled : Spelled bs t) : bs ≠ [] := by
  cases spelled with
  | number _ filled | word _ filled => exact filled
  | single => simp

-- Reading on from behind a text, without regard to where tokens have to end.
inductive Reads : List UInt8 → List UInt8 → Except LexError (List Token) → Prop where
  | done : Reads passed [] (.ok [])
  | token (spelled : Spelled bs t) (place : t.position = .behind passed)
      (later : Reads (passed ++ bs) rest result) :
      Reads passed (bs ++ rest) (result.map (t :: ·))
  | blank (skipped : b = newline ∨ isSpace b) (later : Reads (passed ++ [b]) rest result) :
      Reads passed (b :: rest) result
  | foreign (outside : contains b = false) :
      Reads passed (b :: rest) (.error ⟨.behind passed, (Text.decodeFirst (b :: rest)).1⟩)

theorem scanAt_reads (passed rest : List UInt8) :
    Reads passed rest (scanAt (.behind passed) rest) := by
  induction pieces rest generalizing passed with
  | nil => exact .done
  | number inside filled breaks _ ih =>
    have spelled : Spelled _ (.number (.behind passed) _) := .number inside filled
    rw [scanAt_number inside filled breaks, ← Position.behind_run spelled.no_newline]
    exact .token spelled rfl (ih _)
  | word inside filled start breaks _ ih =>
    have spelled : Spelled _ (.word (.behind passed) _) := .word inside filled start
    rw [scanAt_word inside filled start breaks, ← Position.behind_run spelled.no_newline]
    exact .token spelled rfl (ih _)
  | @single b rest sort known _ ih =>
    have spelled : Spelled [b] (.single (.behind passed) sort b) := .single known
    rw [scanAt_single known, ← Position.behind_byte (spelled.no_newline b (by simp))]
    exact .token spelled rfl (ih _)
  | newline _ ih =>
    rw [scanAt_newline, ← Position.behind_newline]
    exact .blank (.inl rfl) (ih _)
  | @space b rest space _ ih =>
    have other : b ≠ newline := by
      rintro rfl
      exact absurd space (by decide)
    rw [scanAt_space space, ← Position.behind_byte other]
    exact .blank (.inr space) (ih _)
  | foreign outside =>
    rw [scanAt_foreign outside]
    exact .foreign outside

def StartsAt (source : List UInt8) (offset : Nat) (t : Token) : Prop :=
  t.position.Denotes source offset ∧ Text.bytesOf t.lexeme <+: source.drop offset

theorem Spelled.startsAt (spelled : Spelled bs t) (place : t.position = .behind passed)
    (rest : List UInt8) : t.StartsAt (passed ++ (bs ++ rest)) passed.length := by
  refine ⟨place ▸ Position.behind_denotes passed (by simp [spelled.filled]), ?_⟩
  rw [spelled.bytes, List.drop_left]
  exact List.prefix_append bs rest

theorem Reads.starts (reads : Reads passed rest result) (read : result = .ok tokens) :
    ∀ t ∈ tokens, ∃ offset, t.StartsAt (passed ++ rest) offset := by
  induction reads generalizing tokens with
  | done =>
    cases read
    simp
  | @token bs t passed rest result spelled place later ih =>
    obtain ⟨others, behind, rfl⟩ := map_ok read
    refine List.forall_mem_cons.mpr ⟨⟨_, spelled.startsAt place rest⟩, ?_⟩
    rw [← List.append_assoc]
    exact ih behind
  | @blank b passed rest result skipped later ih =>
    rw [← List.singleton_append, ← List.append_assoc]
    exact ih read
  | foreign => cases read

structure Foreign (source : List UInt8) (offset : Nat) (e : LexError) : Prop where
  denotes : e.position.Denotes source offset
  outside : ∃ b, source[offset]? = some b ∧ contains b = false
  first : ∀ b ∈ source.take offset, contains b
  char : e.char = (Text.decodeFirst (source.drop offset)).1

theorem Spelled.contains (spelled : Spelled bs t) : ∀ b ∈ bs, Alphabet.contains b := by
  cases spelled with
  | number inside =>
    intro b member
    simp [Alphabet.contains, inside b member]
  | word inside =>
    intro b member
    simp [Alphabet.contains, inside b member]
  | single known =>
    have each : ∀ s ∈ singles, Alphabet.contains s.1 := by decide
    simpa using each _ known

theorem blank_contains (skipped : b = newline ∨ isSpace b) : contains b := by
  obtain rfl | space := skipped
  · decide
  · simp [contains, space]

theorem map_error {f : List Token → List Token} {result : Except LexError (List Token)}
    (failed : result.map f = .error e) : result = .error e := by
  cases result with
  | error e => cases failed; rfl
  | ok later => cases failed

theorem Reads.foreign_first (reads : Reads passed rest result) (failed : result = .error e)
    (known : ∀ b ∈ passed, contains b) : ∃ offset, Foreign (passed ++ rest) offset e := by
  induction reads with
  | done => cases failed
  | token spelled place later ih =>
    rw [← List.append_assoc]
    exact ih (map_error failed) (List.forall_mem_append.mpr ⟨known, spelled.contains⟩)
  | @blank b passed rest result skipped later ih =>
    rw [← List.singleton_append, ← List.append_assoc]
    refine ih failed (List.forall_mem_append.mpr ⟨known, ?_⟩)
    exact List.forall_mem_singleton.mpr (blank_contains skipped)
  | @foreign b passed rest outside =>
    cases failed
    refine ⟨passed.length, Position.behind_denotes passed (by simp), ?_, ?_, ?_⟩
    · exact ⟨b, by simp, outside⟩
    · rwa [List.take_left]
    · rw [List.drop_left]

theorem scan_foreign (failed : scan source = .error e) : ∃ offset, Foreign source offset e :=
  (scanAt_reads [] source).foreign_first failed (by simp)

theorem scan_starts (scanned : scan source = .ok tokens) (member : t ∈ tokens) :
    ∃ offset, t.StartsAt source offset :=
  (scanAt_reads [] source).starts scanned t member

end Token

end Minilang
