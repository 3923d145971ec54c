import Minilang.Proofs.MovedRun
import Minilang.Proofs.SourcePosition

namespace Minilang

open Alphabet

def Position.lower (rows : Nat) (p : Position) : Position := ⟨p.row + rows, p.column⟩

namespace Position

theorem lower_right (rows : Nat) (p : Position) (n : Nat) :
    (p.lower rows).right n = (p.right n).lower rows := rfl

theorem lower_nextRow (rows : Nat) (p : Position) :
    (p.lower rows).nextRow = p.nextRow.lower rows := by
  simp only [lower, nextRow, Position.mk.injEq, and_true]
  omega

theorem behind_line (line : List UInt8) :
    behind (line ++ [newline]) = origin.lower (line.count newline + 1) := by
  simp [behind, Cursor.lineLength, origin, lower]

end Position

namespace Token

def answerMoved (h : Position → Position) :
    Except LexError (List Token) → Except LexError (List Token)
  | .ok ts => .ok (ts.map (moved h))
  | .error e => .error { e with position := h e.position }

def followedBy (first later : Except LexError (List Token)) : Except LexError (List Token) :=
  first.bind fun ts => later.map (ts ++ ·)

section Answers

variable {first later : Except LexError (List Token)} {h : Position → Position} {t : Token}

theorem answerMoved_cons :
    answerMoved h (first.map (t :: ·)) = (answerMoved h first).map (t.moved h :: ·) := by
  cases first <;> rfl

@[simp]
theorem followedBy_cons :
    followedBy (first.map (t :: ·)) later = (followedBy first later).map (t :: ·) := by
  cases first <;> cases later <;> rfl

@[simp]
theorem followedBy_nil : followedBy (.ok []) later = later := by
  cases later <;> rfl

end Answers

theorem scanAt_lower (rows : Nat) (p : Position) (text : List UInt8) :
    scanAt (p.lower rows) text = answerMoved (Position.lower rows) (scanAt p text) := by
  induction pieces text generalizing p with
  | nil => rfl
  | number inside filled breaks _ ih =>
    rw [scanAt_number inside filled breaks, scanAt_number inside filled breaks, answerMoved_cons,
      Position.lower_right, ih]
    rfl
  | word inside filled start breaks _ ih =>
    rw [scanAt_word inside filled start breaks, scanAt_word inside filled start breaks,
      answerMoved_cons, Position.lower_right, ih]
    rfl
  | single known _ ih =>
    rw [scanAt_single known, scanAt_single known, answerMoved_cons, Position.lower_right, ih]
    rfl
  | newline _ ih => rw [scanAt_newline, scanAt_newline, Position.lower_nextRow, ih]
  | space blank _ ih => rw [scanAt_space blank, scanAt_space blank, Position.lower_right, ih]
  | foreign outside =>
    rw [scanAt_foreign outside, scanAt_foreign outside]
    rfl

-- A line break ends every run, and no character goes on behind one.
theorem breaks_line {q : UInt8 → Bool} {rest text : List UInt8} (breaks : Breaks q rest)
    (ends : q newline = false) : Breaks q (rest ++ newline :: text) := by
  cases rest with
  | nil => simpa [Breaks] using ends
  | cons b rest => exact breaks

theorem secondByte_line (lead : UInt8) : ¬(Text.secondByteBounds lead).1 ≤ newline := by
  unfold Text.secondByteBounds
  repeat' split
  all_goals decide

-- Where the bytes of a character were cut short, the line break does not complete them.
theorem decodeFirst_line (b : UInt8) (rest text : List UInt8) :
    (Text.decodeFirst (b :: (rest ++ newline :: text))).1 = (Text.decodeFirst (b :: rest)).1 := by
  have second := secondByte_line b
  have continues : Text.isContinuation newline = false := by decide
  dsimp only [Text.decodeFirst]
  generalize Text.announcedWidth b = width
  rcases width with _ | _ | _ | _ | _ | _ | width
  · rfl
  · rfl
  · rfl
  · rcases rest with _ | ⟨c, rest⟩
    · simp [continues]
    · rfl
  · rcases rest with _ | ⟨c, _ | ⟨d, rest⟩⟩
    · cases text <;> simp [second]
    · simp [continues]
    · rfl
  · rcases rest with _ | ⟨c, _ | ⟨d, _ | ⟨e, rest⟩⟩⟩
    · rcases text with _ | ⟨x, _ | ⟨y, text⟩⟩ <;> simp [second]
    · cases text <;> simp [continues]
    · simp [continues]
    · rfl
  · rfl

theorem scanAt_line (passed line text : List UInt8) :
    scanAt (.behind passed) (line ++ newline :: text) =
      followedBy (scanAt (.behind passed) line)
        (scanAt (.behind (passed ++ line ++ [newline])) text) := by
  induction pieces line generalizing passed with
  | nil =>
    rw [List.nil_append, scanAt_newline, ← Position.behind_newline, List.append_nil]
    exact followedBy_nil.symm
  | @number run rest inside filled breaks _ ih =>
    have spelled : Spelled run (.number (.behind passed) run) := .number inside filled
    have later := ih (passed ++ run)
    rw [Position.behind_run spelled.no_newline] at later
    rw [scanAt_number inside filled breaks, followedBy_cons, List.append_assoc,
      scanAt_number inside filled (breaks_line breaks (by decide)), later]
    simp only [List.append_assoc]
  | @word run rest inside filled start breaks _ ih =>
    have spelled : Spelled run (.word (.behind passed) run) := .word inside filled start
    have later := ih (passed ++ run)
    rw [Position.behind_run spelled.no_newline] at later
    rw [scanAt_word inside filled start breaks, followedBy_cons, List.append_assoc,
      scanAt_word inside filled start (breaks_line breaks (by decide)), later]
    simp only [List.append_assoc]
  | @single b rest sort known _ ih =>
    have spelled : Spelled [b] (.single (.behind passed) sort b) := .single known
    have later := ih (passed ++ [b])
    rw [Position.behind_byte (spelled.no_newline b (by simp))] at later
    rw [scanAt_single known, followedBy_cons, List.cons_append, scanAt_single known, later]
    simp only [List.append_assoc, List.singleton_append]
  | @newline rest _ ih =>
    have later := ih (passed ++ [newline])
    rw [Position.behind_newline] at later
    rw [scanAt_newline, List.cons_append, scanAt_newline, later]
    simp only [List.append_assoc, List.singleton_append]
  | @space b rest blank _ ih =>
    have other : b ≠ newline := by
      rintro rfl
      exact absurd blank (by decide)
    have later := ih (passed ++ [b])
    rw [Position.behind_byte other] at later
    rw [scanAt_space blank, List.cons_append, scanAt_space blank, later]
    simp only [List.append_assoc, List.singleton_append]
  | @foreign b rest outside =>
    rw [scanAt_foreign outside, List.cons_append, scanAt_foreign outside, decodeFirst_line]
    rfl

theorem scan_line (line text : List UInt8) :
    scan (line ++ newline :: text) =
      followedBy (scan line) (answerMoved (Position.lower (line.count newline + 1)) (scan text)) := by
  have origin : Position.origin = .behind [] := rfl
  rw [scan_eq, scan_eq, scan_eq, origin, scanAt_line, List.nil_append, Position.behind_line,
    scanAt_lower, ← origin]

theorem scanning_splits_at_lines (line text : List UInt8) :
    (∀ e, scan line = .error e → scan (line ++ newline :: text) = .error e) ∧
    (∀ ts us, scan line = .ok ts → scan text = .ok us → scan (line ++ newline :: text) =
      .ok (ts ++ us.map (moved (.lower (line.count newline + 1))))) ∧
    ∀ ts e, scan line = .ok ts → scan text = .error e → scan (line ++ newline :: text) =
      .error { e with position := e.position.lower (line.count newline + 1) } := by
  rw [scan_line]
  refine ⟨?_, ?_, ?_⟩
  · intro e failed
    rw [failed]
    rfl
  · intro ts us first second
    rw [first, second]
    rfl
  · intro ts e first failed
    rw [first, failed]
    rfl

theorem scanning_splits_at_lines_cut :
    scan [195] = .error ⟨⟨0, 0⟩, 65533⟩ ∧
    scan ([195] ++ newline :: [169]) = .error ⟨⟨0, 0⟩, 65533⟩ ∧
    scan ([97] ++ newline :: [97]) =
      .ok ([word ⟨0, 0⟩ [97]] ++ [word ⟨0, 0⟩ [97]].map (moved (.lower 1))) ∧
    scan ([10, 97] ++ newline :: [32, 63]) = .error ⟨⟨2, 1⟩, 63⟩ := by
  have cut : scan [195] = .error ⟨⟨0, 0⟩, 65533⟩ := rfl
  have name : scan [97] = .ok [word ⟨0, 0⟩ [97]] := rfl
  have below : scan [10, 97] = .ok [word ⟨1, 0⟩ [97]] := rfl
  refine ⟨cut, ?_, ?_, ?_⟩
  · exact (scanning_splits_at_lines [195] [169]).1 _ cut
  · exact (scanning_splits_at_lines [97] [97]).2.1 _ _ name name
  · exact (scanning_splits_at_lines [10, 97] [32, 63]).2.2 _ ⟨⟨0, 1⟩, 63⟩ below rfl

end Token

end Minilang
