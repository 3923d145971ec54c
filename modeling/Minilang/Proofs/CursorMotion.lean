import Minilang.Proofs.SourcePosition
import Minilang.Source.Cursor

namespace Minilang.Cursor

open Alphabet

variable {b : UInt8} {before after run rest : List UInt8} {q : UInt8 → Bool}

def between (before after : List UInt8) : Cursor :=
  ⟨before.reverse, after, before.count newline, lineLength before.reverse,
    rowEndsFrom 0 (before ++ after)⟩

def position (c : Cursor) : Position := ⟨c.row, c.column⟩

theorem source_between : (between before after).source = before ++ after := by
  simp [Cursor.source, between]

theorem offset_between : (between before after).offset = before.length := by
  simp [offset, between]

@[simp]
theorem lineLength_newline (passed : List UInt8) : lineLength (newline :: passed) = 0 := by
  simp [lineLength]

theorem lineLength_cons (other : b ≠ newline) (passed : List UInt8) :
    lineLength (b :: passed) = lineLength passed + 1 := by
  simp [lineLength, other]

-- The table is made from the front of the source and asked from its back. What stands in it
-- for the rows of the first part of a source does not depend on the second part, and the
-- first row of the second part starts at the column that the first part leads to.
theorem rowEndsFrom_append (passed before after : List UInt8) :
    rowEndsFrom (lineLength passed) (before ++ after) =
      rowEndsFrom (lineLength passed) before ++
        rowEndsFrom (lineLength (before.reverse ++ passed)) after := by
  induction before generalizing passed with
  | nil => simp [rowEndsFrom]
  | cons b before ih =>
    have later := ih (b :: passed)
    rw [List.cons_append, rowEndsFrom, rowEndsFrom, List.reverse_cons, List.append_assoc,
      List.singleton_append]
    by_cases line : b = newline
    · subst line
      rw [lineLength_newline] at later
      simp [later]
    · rw [lineLength_cons line] at later
      simp [line, later]

theorem length_rowEndsFrom (column : Nat) (bytes : List UInt8) :
    (rowEndsFrom column bytes).length = bytes.count newline := by
  induction bytes generalizing column with
  | nil => rfl
  | cons b bytes ih =>
    rw [rowEndsFrom]
    by_cases line : b = newline
    · simp [line, ih]
    · simp [line, ih]

theorem rowEnds_newline (before after : List UInt8) :
    (rowEndsFrom 0 (before ++ newline :: after))[before.count newline]? =
      some (lineLength before.reverse) := by
  have table := rowEndsFrom_append [] before (newline :: after)
  rw [show lineLength [] = 0 from rfl, List.append_nil] at table
  rw [table, List.getElem?_append_right (Nat.le_of_eq (length_rowEndsFrom 0 before)),
    length_rowEndsFrom]
  simp [rowEndsFrom]

theorem advance?_between :
    (between before (b :: after)).advance? = some (between (before ++ [b]) after) := by
  unfold advance? between
  by_cases line : b = newline
  · subst line
    simp
  · simp [line, lineLength_cons line]

theorem retreat?_between :
    (between (before ++ [b]) after).retreat? = some (between before (b :: after)) := by
  unfold retreat? between
  by_cases line : b = newline
  · subst line
    simp [rowEnds_newline]
  · simp [line, lineLength_cons line]

theorem steps_between (run before rest : List UInt8) :
    run.foldl (fun here _ => here.advance?.getD here) (between before (run ++ rest)) =
      between (before ++ run) rest := by
  induction run generalizing before with
  | nil => simp
  | cons b run ih =>
    have later := ih (before ++ [b])
    rw [List.append_assoc, List.singleton_append] at later
    rw [List.cons_append, List.foldl_cons, advance?_between, Option.getD_some, later]

theorem advanceWhile_between (inside : ∀ b ∈ run, q b) (breaks : Token.Breaks q rest) :
    (between before (run ++ rest)).advanceWhile q = between (before ++ run) rest := by
  have taken := (Token.takeWhile_run inside breaks).1
  unfold advanceWhile
  show List.foldl _ _ ((run ++ rest).takeWhile q) = _
  rw [taken, steps_between]

theorem readWhile_run (before others : List UInt8) (inside : ∀ x ∈ others ++ [b], q x)
    (breaks : Token.Breaks q rest) :
    (between before (others ++ [b] ++ rest)).readWhile q =
      some (others ++ [b], between (before ++ others) (b :: rest)) := by
  have back : (between (before ++ (others ++ [b])) rest).retreat? =
      some (between (before ++ others) (b :: rest)) := by
    rw [← List.append_assoc, retreat?_between]
  unfold readWhile
  rw [advanceWhile_between inside breaks, back, Option.bind_some]
  simp only [source_between, offset_between]
  rw [if_pos (by simp)]
  have read : ((before ++ (others ++ [b] ++ rest)).take ((before ++ others).length + 1)).drop
      before.length = others ++ [b] := by
    have whole : before ++ (others ++ [b] ++ rest) = (before ++ (others ++ [b])) ++ rest := by simp
    have long : (before ++ others).length + 1 = (before ++ (others ++ [b])).length := by
      simp; omega
    rw [whole, long, List.take_left, List.drop_left]
  rw [read]

theorem readWhile_between (before : List UInt8) (inside : ∀ b ∈ run, q b) (filled : run ≠ [])
    (breaks : Token.Breaks q rest) :
    ∃ last, (between before (run ++ rest)).readWhile q = some (run, last) ∧
      last.advance? = some (between (before ++ run) rest) := by
  obtain ⟨others, b, rfl⟩ : ∃ others b, run = others ++ [b] :=
    ⟨_, _, (List.dropLast_concat_getLast filled).symm⟩
  refine ⟨between (before ++ others) (b :: rest), readWhile_run before others inside breaks, ?_⟩
  rw [advance?_between, List.append_assoc]

section Motions

inductive Motion where
  | advance
  | retreat
  | read (inClass : UInt8 → Bool)

def move? (c : Cursor) : Motion → Option Cursor
  | .advance => c.advance?
  | .retreat => c.retreat?
  | .read inClass => (c.readWhile inClass).map (·.2)

-- A motion that asks for something outside the source or the table leaves the cursor alone.
def move (c : Cursor) (motion : Motion) : Cursor := (c.move? motion).getD c

def moves (c : Cursor) (motions : List Motion) : Cursor := motions.foldl move c

-- Where a cursor is in a source: the bytes on its two sides are those of the source, its row
-- is the number of newlines before it, and its column the number of bytes since the last.
structure StandsIn (c : Cursor) (source : List UInt8) : Prop where
  whole : c.source = source
  inside : c.offset ≤ source.length
  byte : c.current? = source[c.offset]?
  row : c.row = (source.take c.offset).count newline
  column : c.column = lineLength (source.take c.offset).reverse

theorem between_standsIn (before after : List UInt8) :
    (between before after).StandsIn (before ++ after) where
  whole := source_between
  inside := by rw [offset_between, List.length_append]; omega
  byte := by
    rw [offset_between, List.getElem?_append_right (Nat.le_refl _), Nat.sub_self]
    exact List.head?_eq_getElem?
  row := by rw [offset_between, List.take_left]; rfl
  column := by rw [offset_between, List.take_left]; rfl

theorem retreat?_anywhere (before after : List UInt8) :
    ∃ front back, front ++ back = before ++ after ∧ front.length = before.length - 1 ∧
      (between before after).retreat? = some (between front back) := by
  rcases List.eq_nil_or_concat before with rfl | ⟨front, b, rfl⟩
  · exact ⟨[], after, rfl, rfl, rfl⟩
  · rw [List.concat_eq_append]
    exact ⟨front, b :: after, by simp, by simp, retreat?_between⟩

theorem advanceWhile_anywhere (q : UInt8 → Bool) (before after : List UInt8) :
    (between before after).advanceWhile q =
      between (before ++ after.takeWhile q) (after.dropWhile q) := by
  have moved : (between before (after.takeWhile q ++ after.dropWhile q)).advanceWhile q = _ :=
    advanceWhile_between (Token.takeWhile_inside q after) (Token.dropWhile_breaks q after)
  rwa [List.takeWhile_append_dropWhile] at moved

theorem readWhile_anywhere (q : UInt8 → Bool) (filled : before ++ after ≠ []) :
    ∃ text front back, front ++ back = before ++ after ∧
      (between before after).readWhile q = some (text, between front back) := by
  obtain ⟨front, back, same, shorter, stepped⟩ :=
    retreat?_anywhere (before ++ after.takeWhile q) (after.dropWhile q)
  rw [List.append_assoc, List.takeWhile_append_dropWhile] at same
  have long : 0 < (front ++ back).length := List.length_pos_iff.mpr (same ▸ filled)
  have within : (before ++ after.takeWhile q).length ≤ (before ++ after).length := by
    simpa using (List.takeWhile_prefix q).length_le
  unfold readWhile
  rw [advanceWhile_anywhere, stepped, Option.bind_some]
  simp only [source_between, offset_between]
  rw [if_pos (by rw [same] at long; omega)]
  exact ⟨_, front, back, same, rfl⟩

theorem move_between (motion : Motion) (before after : List UInt8) :
    ∃ front back, front ++ back = before ++ after ∧
      (between before after).move motion = between front back := by
  cases motion with
  | advance =>
    cases after with
    | nil => exact ⟨before, [], rfl, rfl⟩
    | cons b after =>
      refine ⟨before ++ [b], after, by simp, ?_⟩
      rw [move, move?, advance?_between, Option.getD_some]
  | retreat =>
    obtain ⟨front, back, same, _, stepped⟩ := retreat?_anywhere before after
    refine ⟨front, back, same, ?_⟩
    rw [move, move?, stepped, Option.getD_some]
  | read q =>
    by_cases filled : before ++ after = []
    · obtain ⟨rfl, rfl⟩ := List.append_eq_nil_iff.mp filled
      exact ⟨[], [], rfl, rfl⟩
    · obtain ⟨text, front, back, same, read⟩ := readWhile_anywhere q filled
      refine ⟨front, back, same, ?_⟩
      rw [move, move?, read, Option.map_some, Option.getD_some]

theorem moves_between (motions : List Motion) (before after : List UInt8) :
    ∃ front back, front ++ back = before ++ after ∧
      (between before after).moves motions = between front back := by
  induction motions generalizing before after with
  | nil => exact ⟨before, after, rfl, rfl⟩
  | cons motion motions ih =>
    obtain ⟨front, back, same, moved⟩ := move_between motion before after
    obtain ⟨left, right, whole, later⟩ := ih front back
    refine ⟨left, right, whole.trans same, ?_⟩
    rw [moves, List.foldl_cons, moved]
    exact later

theorem readWhile_none (before after : List UInt8) (q : UInt8 → Bool) :
    (between before after).readWhile q = none ↔ before ++ after = [] := by
  constructor
  · intro failed
    refine Decidable.byContradiction fun filled => ?_
    obtain ⟨text, front, back, _, read⟩ := readWhile_anywhere q filled
    rw [failed] at read
    cases read
  · intro empty
    obtain ⟨rfl, rfl⟩ := List.append_eq_nil_iff.mp empty
    rfl

structure RunAt (source : List UInt8) (offset : Nat) (q : UInt8 → Bool) (run : List UInt8) :
    Prop where
  filled : run ≠ []
  found : (source.drop offset).take run.length = run
  inside : ∀ x ∈ run, q x
  maximal : ∀ x, source[offset + run.length]? = some x → q x = false

theorem readWhile_runAt (before after : List UInt8) (first : q b) :
    ∃ run last, (between before (b :: after)).readWhile q = some (run, last) ∧
      RunAt (before ++ b :: after) before.length q run ∧
      last.offset + 1 = before.length + run.length ∧ last.current? = run.getLast? := by
  have filled : (b :: after).takeWhile q ≠ [] := by simp [first]
  obtain ⟨others, x, split⟩ : ∃ others x, (b :: after).takeWhile q = others ++ [x] :=
    ⟨_, _, (List.dropLast_concat_getLast filled).symm⟩
  have inside := Token.takeWhile_inside q (b :: after)
  have breaks := Token.dropWhile_breaks q (b :: after)
  have whole := List.takeWhile_append_dropWhile (p := q) (l := b :: after)
  rw [split] at inside whole
  have read := readWhile_run before others inside breaks
  generalize (b :: after).dropWhile q = rest at breaks whole read
  rw [← whole]
  refine ⟨_, _, read, ⟨by simp, ?_, inside, ?_⟩, ?_, ?_⟩
  · rw [List.drop_left, List.take_left]
  · intro y next
    rw [List.getElem?_append_right (Nat.le_add_right _ _), Nat.add_sub_cancel_left,
      List.getElem?_append_right (Nat.le_refl _), Nat.sub_self] at next
    exact breaks y (List.head?_eq_getElem?.trans next)
  · rw [offset_between, List.length_append, List.length_append, List.length_singleton]
    omega
  · rw [List.getLast?_concat]
    rfl

-- Along any motions a cursor keeps its place: the table always has the row that a step back
-- returns to, a step back undoes a step forward, and reading takes a whole run.
theorem cursor_keeps_place (source : List UInt8) (motions : List Motion) :
    let c := (start source).moves motions
    c.StandsIn source ∧
    (c.advance? = none ↔ c.offset = source.length) ∧
    (∀ next, c.advance? = some next → next.offset = c.offset + 1 ∧ next.retreat? = some c) ∧
    (∃ back, c.retreat? = some back ∧ back.offset = c.offset - 1) ∧
    (∀ q, c.readWhile q = none ↔ source = []) ∧
    ∀ q b, c.current? = some b → q b → ∃ run last, c.readWhile q = some (run, last) ∧
      RunAt source c.offset q run ∧ last.offset + 1 = c.offset + run.length ∧
      last.current? = run.getLast? := by
  intro c
  obtain ⟨before, after, whole, moved⟩ := moves_between motions [] source
  rw [List.nil_append] at whole
  subst whole
  have here : c = between before after := moved
  rw [here, offset_between]
  refine ⟨between_standsIn before after, ?_, ?_, ?_, readWhile_none before after, ?_⟩
  · cases after with
    | nil => simp [advance?, between]
    | cons b after => simp [advance?_between]
  · intro next stepped
    cases after with
    | nil => cases stepped
    | cons b after =>
      rw [advance?_between] at stepped
      cases Option.some.inj stepped
      exact ⟨by rw [offset_between, List.length_append, List.length_singleton], retreat?_between⟩
  · obtain ⟨front, back, _, shorter, stepped⟩ := retreat?_anywhere before after
    exact ⟨between front back, stepped, by rw [offset_between, shorter]⟩
  · intro q b current first
    cases after with
    | nil => cases current
    | cons x after =>
      cases Option.some.inj current
      exact readWhile_runAt before after first

theorem cursor_keeps_place_blank_row :
    let source : List UInt8 := [97, newline, newline, 98]
    let motions : List Motion := [.advance, .advance, .advance, .retreat, .read isDigit]
    let c := (start source).moves motions
    (c.offset, c.row, c.column) = (1, 0, 1) ∧ c.StandsIn source ∧
    (∃ next, c.advance? = some next ∧ (next.row, next.column) = (1, 0) ∧ next.retreat? = some c) ∧
    ∃ run last, c.readWhile (· == newline) = some (run, last) ∧
      RunAt source 1 (· == newline) run ∧ last.offset + 1 = 1 + run.length := by
  intro source motions c
  have here : (start source).moves motions = between [97] [newline, newline, 98] := rfl
  have ahead : (between [97] [newline, newline, 98]).advance? = _ := advance?_between
  obtain ⟨stands, _, undone, _, _, reads⟩ := cursor_keeps_place source motions
  rw [here] at stands undone reads
  obtain ⟨run, last, read, found, stopped, _⟩ := reads (· == newline) newline rfl rfl
  rw [show c = between [97] [newline, newline, 98] from here]
  exact ⟨rfl, stands, ⟨_, ahead, rfl, (undone _ ahead).2⟩, run, last, read, found, stopped⟩

end Motions

end Minilang.Cursor
