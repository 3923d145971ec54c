import Minilang.Proofs.SourcePosition

namespace Minilang.Token

open Alphabet

structure Placed where
  start : Nat
  token : Token

def Placed.stop (p : Placed) : Nat := p.start + (Text.bytesOf p.token.lexeme).length

def Placed.Covers (p : Placed) (offset : Nat) : Prop := p.start ≤ offset ∧ offset < p.stop

-- How tokens lie in a source from an offset on: each where its place says, one behind the
-- other, and only blanks and line ends outside of them.
structure Tiles (source : List UInt8) (first : Nat) (placed : List Placed) : Prop where
  stands : ∀ p ∈ placed, first ≤ p.start ∧ p.token.StartsAt source p.start
  apart : placed.Pairwise fun one two => one.stop ≤ two.start
  blank : ∀ offset b, first ≤ offset → source[offset]? = some b →
    (∀ p ∈ placed, ¬p.Covers offset) → b ∈ [32, 9, 13, 11, 12, 10]

namespace Tiles

variable {source passed rest : List UInt8} {first : Nat} {placed : List Placed}

theorem nil (ended : source.length ≤ first) : Tiles source first [] := by
  refine ⟨by simp, .nil, ?_⟩
  intro offset b beyond found _
  rw [List.getElem?_eq_none (Nat.le_trans ended beyond)] at found
  cases found

theorem token {t : Token} (starts : t.StartsAt source first)
    (later : Tiles source (Placed.stop ⟨first, t⟩) placed) :
    Tiles source first (⟨first, t⟩ :: placed) := by
  have forward : first ≤ Placed.stop ⟨first, t⟩ := Nat.le_add_right _ _
  refine ⟨?_, ?_, ?_⟩
  · refine List.forall_mem_cons.mpr ⟨⟨Nat.le_refl _, starts⟩, ?_⟩
    intro p member
    obtain ⟨behind, stands⟩ := later.stands p member
    exact ⟨Nat.le_trans forward behind, stands⟩
  · exact List.pairwise_cons.mpr ⟨fun p member => (later.stands p member).1, later.apart⟩
  · intro offset b beyond found outside
    obtain ⟨here, others⟩ := List.forall_mem_cons.mp outside
    have behind : Placed.stop ⟨first, t⟩ ≤ offset := by
      apply Nat.le_of_not_lt
      intro inside
      exact here ⟨beyond, inside⟩
    exact later.blank offset b behind found others

theorem skip (found : source[first]? = some b) (skipped : b = newline ∨ isSpace b)
    (later : Tiles source (first + 1) placed) : Tiles source first placed := by
  refine ⟨?_, later.apart, ?_⟩
  · intro p member
    obtain ⟨behind, stands⟩ := later.stands p member
    exact ⟨Nat.le_of_succ_le behind, stands⟩
  · intro offset c beyond there outside
    rcases Nat.eq_or_lt_of_le beyond with rfl | behind
    · rw [found] at there
      cases there
      rcases skipped with rfl | space
      · decide
      · simp only [isSpace, Bool.or_eq_true, beq_iff_eq] at space
        simp only [List.mem_cons, List.not_mem_nil, or_false]
        grind
    · exact later.blank offset c behind there outside

end Tiles

theorem Reads.tiles (reads : Reads passed rest result) (read : result = .ok tokens) :
    ∃ placed, placed.map Placed.token = tokens ∧ Tiles (passed ++ rest) passed.length placed := by
  induction reads generalizing tokens with
  | done =>
    cases read
    exact ⟨[], rfl, .nil (by simp)⟩
  | @token bs t passed rest result spelled place later ih =>
    obtain ⟨others, behind, rfl⟩ := map_ok read
    obtain ⟨placed, same, tiles⟩ := ih behind
    have starts := spelled.startsAt place rest
    have stop : Placed.stop ⟨passed.length, t⟩ = (passed ++ bs).length := by
      rw [Placed.stop, spelled.bytes, List.length_append]
    rw [List.append_assoc, ← stop] at tiles
    exact ⟨⟨passed.length, t⟩ :: placed, by rw [List.map_cons, same], tiles.token starts⟩
  | @blank b passed rest result skipped later ih =>
    obtain ⟨placed, same, tiles⟩ := ih read
    rw [List.append_assoc, List.singleton_append, List.length_append] at tiles
    exact ⟨placed, same, tiles.skip (by simp) skipped⟩
  | foreign => cases read

theorem tokens_tile_source (source : List UInt8) (tokens : List Token)
    (scanned : scan source = .ok tokens) :
    (∃ placed, placed.map Placed.token = tokens ∧ Tiles source 0 placed) ∧
      ∀ t ∈ tokens, t.Valid := by
  refine ⟨(scanAt_reads [] source).tiles scanned, ?_⟩
  rw [scan_eq] at scanned
  exact scanAt_valid scanned

theorem tokens_tile_source_lines :
    let source : List UInt8 := [105, 102, 10, 10, 32, 48, 55]
    let tokens : List Token := [⟨⟨0, 0⟩, .keyword, "if", none⟩, ⟨⟨2, 1⟩, .number, "07", some 7⟩]
    scan source = .ok tokens ∧
      (∃ placed, placed.map Placed.token = tokens ∧ Tiles source 0 placed) ∧
      ∀ t ∈ tokens, t.Valid := by
  intro source tokens
  have scanned : scan source = .ok tokens := by rfl
  exact ⟨scanned, tokens_tile_source source tokens scanned⟩

end Minilang.Token
