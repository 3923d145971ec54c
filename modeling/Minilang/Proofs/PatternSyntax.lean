import Minilang.Files.Pattern
import Minilang.Proofs.Decoding

namespace Minilang.Pattern

-- The syntax of patterns, apart from how they are matched. One end of a range is a character,
-- or any character behind a backslash.
inductive RangeEnd : Bytes → Prop where
  | plain (encoded : Text.Encoded (b :: bs) code) (dash : b ≠ byte '-') (close : b ≠ byte ']')
      (backslash : b ≠ byte '\\') : RangeEnd (b :: bs)
  | escaped (encoded : Text.Encoded bs code) : RangeEnd (byte '\\' :: bs)

inductive Range : Bytes → Prop where
  | single (only : RangeEnd e) : Range e
  | span (low : RangeEnd e) (high : RangeEnd f) : Range (e ++ byte '-' :: f)

inductive Ranges : Bool → Bytes → Prop where
  | done : Ranges false []
  | more (range : Range r) (later : Ranges false rs) : Ranges first (r ++ rs)

-- A caret right behind an opening bracket belongs to no range. Stars and question marks are
-- bytes like others here.
inductive WellFormed : Bytes → Prop where
  | nil : WellFormed []
  | plain (bracket : b ≠ byte '[') (backslash : b ≠ byte '\\') (later : WellFormed p) :
      WellFormed (b :: p)
  | escaped (later : WellFormed p) : WellFormed (byte '\\' :: b :: p)
  | bracket (first : r.head? ≠ some (byte '^')) (inside : Ranges true r) (later : WellFormed p) :
      WellFormed (byte '[' :: (r ++ byte ']' :: p))
  | negated (inside : Ranges true r) (later : WellFormed p) :
      WellFormed (byte '[' :: byte '^' :: (r ++ byte ']' :: p))

theorem WellFormed.append (first : WellFormed p) (second : WellFormed q) : WellFormed (p ++ q) := by
  induction first with
  | nil => exact second
  | plain bracket backslash _ ih => exact .plain bracket backslash ih
  | escaped _ ih => exact .escaped ih
  | bracket first inside _ ih =>
    rw [List.cons_append, List.append_assoc]
    exact .bracket first inside ih
  | negated inside _ ih =>
    rw [List.cons_append, List.cons_append, List.append_assoc]
    exact .negated inside ih

theorem wellFormed_plain (bytes : Bytes) (none : ∀ b ∈ bytes, b ≠ byte '[' ∧ b ≠ byte '\\') :
    WellFormed bytes := by
  induction bytes with
  | nil => exact .nil
  | cons b bytes ih =>
    obtain ⟨here, later⟩ := List.forall_mem_cons.mp none
    exact .plain here.1 here.2 (ih later)

def charRead (chunk : Bytes) : Option (Nat × Bytes) :=
  let (code, width) := Text.decodeFirst chunk
  let rest := chunk.drop width
  if rest.isEmpty || (code == Text.replacement && width ≤ 1) then none else some (code, rest)

theorem rangeEnd_plain (dash : b ≠ byte '-') (close : b ≠ byte ']') (backslash : b ≠ byte '\\')
    (rest : Bytes) : rangeEnd (b :: rest) = charRead (b :: rest) := by
  have other : (b == byte '\\') = false := by simpa using backslash
  unfold rangeEnd charRead
  simp [dash, close, other]

theorem rangeEnd_escaped (rest : Bytes) : rangeEnd (byte '\\' :: rest) = charRead rest := rfl

theorem encoded_wide (encoded : Text.Encoded bs code) :
    ¬(code = Text.replacement ∧ bs.length ≤ 1) := by
  rintro ⟨same, short⟩
  cases encoded with
  | one low => exact absurd low (by rw [same]; decide)
  | two | three | four => simp at short

theorem charRead_encoded (encoded : Text.Encoded bs code) (filled : tail ≠ []) :
    charRead (bs ++ tail) = some (code, tail) := by
  unfold charRead
  rw [Text.decodeFirst_encoded encoded]
  dsimp only
  rw [List.drop_left, if_neg (by simpa [filled] using encoded_wide encoded)]

theorem charRead_canonical (read : charRead chunk = some (code, tail)) :
    ∃ bs, Text.Encoded bs code ∧ chunk = bs ++ tail ∧ tail ≠ [] := by
  unfold charRead at read
  dsimp only at read
  split at read
  · cases read
  · rename_i accepted
    cases read
    simp only [Bool.or_eq_true, List.isEmpty_iff, Bool.and_eq_true, beq_iff_eq, decide_eq_true_eq,
      not_or] at accepted
    rcases Text.decodeFirst_cases chunk with ⟨bs, code, encoded, tail, rfl⟩ | replaced
    · rw [Text.decodeFirst_encoded encoded, List.drop_left] at accepted ⊢
      exact ⟨bs, encoded, rfl, accepted.1⟩
    · exact absurd replaced accepted.2

theorem RangeEnd.read (given : RangeEnd e) (filled : tail ≠ []) :
    ∃ code, rangeEnd (e ++ tail) = some (code, tail) := by
  cases given with
  | plain encoded dash close backslash =>
    rw [List.cons_append, rangeEnd_plain dash close backslash, ← List.cons_append]
    exact ⟨_, charRead_encoded encoded filled⟩
  | escaped encoded => exact ⟨_, charRead_encoded encoded filled⟩

theorem rangeEnd_canonical (read : rangeEnd chunk = some (code, tail)) :
    ∃ e, RangeEnd e ∧ chunk = e ++ tail ∧ tail ≠ [] := by
  cases chunk with
  | nil => cases read
  | cons b rest =>
    by_cases backslash : b = byte '\\'
    · subst backslash
      rw [rangeEnd_escaped] at read
      obtain ⟨bs, encoded, rfl, filled⟩ := charRead_canonical read
      exact ⟨byte '\\' :: bs, .escaped encoded, rfl, filled⟩
    · by_cases barred : b = byte '-' ∨ b = byte ']'
      · have refused : rangeEnd (b :: rest) = none := by
          rcases barred with rfl | rfl <;> rfl
        rw [refused] at read
        cases read
      · obtain ⟨dash, close⟩ := not_or.mp barred
        rw [rangeEnd_plain dash close backslash] at read
        obtain ⟨bs, encoded, same, filled⟩ := charRead_canonical read
        cases bs with
        | nil => cases encoded
        | cons c bs =>
          obtain ⟨rfl, rfl⟩ := List.cons.inj same
          exact ⟨b :: bs, .plain encoded dash close backslash, rfl, filled⟩

theorem RangeEnd.head (given : RangeEnd e) :
    ∃ b bs, e = b :: bs ∧ b ≠ byte '-' ∧ b ≠ byte ']' := by
  cases given with
  | plain _ dash close _ => exact ⟨_, _, rfl, dash, close⟩
  | escaped => exact ⟨_, _, rfl, by decide, by decide⟩

theorem Range.head (given : Range r) : ∃ b bs, r = b :: bs ∧ b ≠ byte '-' ∧ b ≠ byte ']' := by
  cases given with
  | single only => exact only.head
  | span low _ =>
    obtain ⟨b, bs, rfl, dash, close⟩ := low.head
    exact ⟨b, _, rfl, dash, close⟩

-- What follows a range is another range or the closing bracket, never a dash.
theorem Ranges.next (given : Ranges false rs) (tail : Bytes) :
    ∃ b bs, rs ++ byte ']' :: tail = b :: bs ∧ b ≠ byte '-' := by
  cases given with
  | done => exact ⟨_, _, rfl, by decide⟩
  | more range _ =>
    obtain ⟨b, bs, rfl, dash, _⟩ := range.head
    exact ⟨b, _, rfl, dash⟩

theorem ranges_close (code n : Nat) (found : Bool) (tail : Bytes) :
    ranges code (n + 1) false found (byte ']' :: tail) = some (found, tail) := rfl

def upperEnd (low : Nat) (rest : Bytes) : Option (Nat × Bytes) :=
  if rest.head? == some (byte '-') then rangeEnd rest.tail else some (low, rest)

theorem ranges_more (open_ : first = true ∨ chunk.head? ≠ some (byte ']'))
    (lower : rangeEnd chunk = some (low, rest)) (upper : upperEnd low rest = some (high, tail))
    (code n : Nat) (found : Bool) :
    ranges code (n + 1) first found chunk =
      ranges code n false (found || (low ≤ code && code ≤ high)) tail := by
  have going : (!first && chunk.head? == some (byte ']')) = false := by
    rcases open_ with rfl | other
    · rfl
    · simp [other]
  unfold upperEnd at upper
  rw [ranges, going, lower]
  simp only [Bool.false_eq_true, if_false, upper]

theorem Range.read (given : Range r) (dash : b ≠ byte '-') (bs : Bytes) :
    ∃ low rest high, rangeEnd (r ++ b :: bs) = some (low, rest) ∧
      upperEnd low rest = some (high, b :: bs) := by
  cases given with
  | single only =>
    obtain ⟨low, lower⟩ := only.read (List.cons_ne_nil b bs)
    refine ⟨low, _, low, lower, ?_⟩
    simp [upperEnd, dash]
  | @span e f low high =>
    obtain ⟨least, lower⟩ := low.read (List.cons_ne_nil (byte '-') (f ++ b :: bs))
    obtain ⟨greatest, upper⟩ := high.read (List.cons_ne_nil b bs)
    refine ⟨least, byte '-' :: (f ++ b :: bs), greatest, ?_, upper⟩
    rw [List.append_assoc]
    exact lower

theorem ranges_read (given : Ranges first r) (bound : r.length < n) (code : Nat) (found : Bool)
    (tail : Bytes) : ∃ held, ranges code n first found (r ++ byte ']' :: tail) = some (held, tail) := by
  induction given generalizing n found with
  | done =>
    cases n with
    | zero => cases bound
    | succ n => exact ⟨found, ranges_close code n found tail⟩
  | @more r rs first range later ih =>
    cases n with
    | zero => cases bound
    | succ n =>
      obtain ⟨b, bs, next, dash⟩ := later.next tail
      obtain ⟨low, rest, high, lower, upper⟩ := range.read dash bs
      obtain ⟨c, cs, rfl, _, close⟩ := range.head
      rw [← next] at lower upper
      rw [List.append_assoc, ranges_more (.inr (by simpa using close)) lower upper]
      apply ih
      simp only [List.length_append, List.length_cons] at bound
      omega

theorem upperEnd_canonical (lower : RangeEnd e) (filled : rest ≠ [])
    (upper : upperEnd low rest = some (high, tail)) :
    ∃ r, Range r ∧ e ++ rest = r ++ tail ∧ tail ≠ [] := by
  unfold upperEnd at upper
  split at upper
  · rename_i dash
    obtain ⟨f, given, after, more⟩ := rangeEnd_canonical upper
    refine ⟨e ++ byte '-' :: f, .span lower given, ?_, more⟩
    cases rest with
    | nil => exact absurd rfl filled
    | cons b rest =>
      obtain rfl : b = byte '-' := by simpa using dash
      rw [List.append_assoc, List.cons_append, ← after]
      rfl
  · cases upper
    exact ⟨e, .single lower, rfl, filled⟩

theorem ranges_canonical (read : ranges code n first found chunk = some (held, tail)) :
    ∃ r, Ranges first r ∧ chunk = r ++ byte ']' :: tail := by
  induction n generalizing first found chunk with
  | zero => cases read
  | succ n ih =>
    by_cases closed : (!first && chunk.head? == some (byte ']')) = true
    · rw [ranges, if_pos closed] at read
      cases read
      simp only [Bool.and_eq_true, Bool.not_eq_true', beq_iff_eq] at closed
      obtain ⟨rfl, head⟩ := closed
      obtain ⟨rest, rfl⟩ := List.head?_eq_some_iff.mp head
      exact ⟨[], .done, rfl⟩
    · rw [ranges, if_neg closed] at read
      cases lower : rangeEnd chunk with
      | none =>
        rw [lower] at read
        cases read
      | some pair =>
        obtain ⟨low, rest⟩ := pair
        rw [lower] at read
        cases upper : upperEnd low rest with
        | none =>
          unfold upperEnd at upper
          simp only [upper] at read
          cases read
        | some pair =>
          obtain ⟨high, after⟩ := pair
          obtain ⟨e, given, rfl, filled⟩ := rangeEnd_canonical lower
          obtain ⟨r, range, same, _⟩ := upperEnd_canonical given filled upper
          unfold upperEnd at upper
          simp only [upper] at read
          obtain ⟨rs, later, rfl⟩ := ih read
          exact ⟨r ++ rs, .more range later, by rw [same, List.append_assoc]⟩

-- Matching a chunk reads it to its end, whatever the name is and wherever it stops to fit.

theorem matchChunk_plain (bracket : b ≠ byte '[') (backslash : b ≠ byte '\\') (n : Nat) (p : Bytes)
    (state : Match) : ∃ next, matchChunk (n + 1) (b :: p) state = matchChunk n p next := by
  rw [matchChunk.eq_def]
  dsimp only
  rw [if_neg (by simpa using bracket)]
  have literal : (b == byte '\\') = false := by simpa using backslash
  split
  · exact ⟨_, rfl⟩
  · simp only [literal, Bool.false_eq_true, if_false]
    exact ⟨_, rfl⟩

theorem matchChunk_escaped (n : Nat) (p : Bytes) (state : Match) :
    ∃ next, matchChunk (n + 1) (byte '\\' :: b :: p) state = matchChunk n p next :=
  ⟨_, rfl⟩

def bracketBody (p : Bytes) : Bytes := if p.head? = some (byte '^') then p.tail else p

def bracketRanges (code : Nat) (p : Bytes) : Option (Bool × Bytes) :=
  ranges code (bracketBody p).length.succ true false (bracketBody p)

theorem matchChunk_bracket (n : Nat) (p : Bytes) (state : Match) :
    (∃ code, bracketRanges code p = none ∧ matchChunk (n + 1) (byte '[' :: p) state = none) ∨
      ∃ code found tail next, bracketRanges code p = some (found, tail) ∧
        matchChunk (n + 1) (byte '[' :: p) state = matchChunk n tail next := by
  have opened : (byte '[' == byte '[') = true := beq_self_eq_true _
  rw [matchChunk.eq_def]
  dsimp only
  rw [if_pos opened]
  cases p with
  | nil => exact .inl ⟨0, rfl, rfl⟩
  | cons c rest =>
    by_cases caret : c = byte '^'
    · subst caret
      split
      · rename_i refused
        exact .inl ⟨_, refused, rfl⟩
      · rename_i found tail read
        exact .inr ⟨_, found, tail, _, read, rfl⟩
    · have body : bracketBody (c :: rest) = c :: rest := if_neg (by simpa using caret)
      have given : (c == byte '^') = false := by simpa using caret
      simp only [bracketRanges, body, given, Bool.false_eq_true, if_false]
      split
      · rename_i refused
        exact .inl ⟨_, refused, rfl⟩
      · rename_i found tail read
        exact .inr ⟨_, found, tail, _, read, rfl⟩

theorem bracketRanges_read (inside : Ranges true r) (body : bracketBody p = r ++ byte ']' :: tail)
    (code : Nat) : ∃ held, bracketRanges code p = some (held, tail) := by
  unfold bracketRanges
  rw [body]
  apply ranges_read inside
  simp only [List.length_append, List.length_cons]
  omega

theorem bracketRanges_canonical (later : WellFormed tail)
    (read : bracketRanges code p = some (held, tail)) : WellFormed (byte '[' :: p) := by
  obtain ⟨r, inside, body⟩ := ranges_canonical read
  unfold bracketBody at body
  split at body
  · rename_i caret
    obtain ⟨rest, rfl⟩ := List.head?_eq_some_iff.mp caret
    rw [List.tail_cons] at body
    rw [body]
    exact .negated inside later
  · rename_i other
    rw [body] at other ⊢
    refine .bracket ?_ inside later
    cases inside with
    | more range =>
      obtain ⟨b, bs, rfl, _⟩ := range.head
      exact other

theorem bracketRanges_shorter (read : bracketRanges code p = some (held, tail)) :
    tail.length < p.length := by
  obtain ⟨r, _, body⟩ := ranges_canonical read
  have shorter : (bracketBody p).length ≤ p.length := by
    unfold bracketBody
    split <;> simp
  rw [body, List.length_append, List.length_cons] at shorter
  omega

theorem bracketBody_plain (first : r.head? ≠ some (byte '^')) :
    bracketBody (r ++ byte ']' :: p) = r ++ byte ']' :: p := by
  apply if_neg
  cases r with
  | nil => exact (by decide : some (byte ']') ≠ some (byte '^'))
  | cons b bs => exact first

theorem matchChunk_ranges (inside : Ranges true r) (body : bracketBody q = r ++ byte ']' :: p)
    (n : Nat) (state : Match) :
    ∃ next, matchChunk (n + 1) (byte '[' :: q) state = matchChunk n p next := by
  rcases matchChunk_bracket n q state with ⟨code, refused, _⟩ | ⟨code, found, tail, next, read, same⟩
  · obtain ⟨held, answer⟩ := bracketRanges_read inside body code
    cases refused.symm.trans answer
  · obtain ⟨held, answer⟩ := bracketRanges_read inside body code
    cases read.symm.trans answer
    exact ⟨next, same⟩

theorem WellFormed.matched (given : WellFormed p) (bound : p.length ≤ n) (state : Match) :
    (matchChunk n p state).isSome := by
  induction given generalizing n state with
  | nil => cases n <;> rfl
  | @plain b p bracket backslash _ ih =>
    cases n with
    | zero => cases bound
    | succ n =>
      obtain ⟨next, same⟩ := matchChunk_plain bracket backslash n p state
      rw [same]
      exact ih (Nat.le_of_succ_le_succ bound) next
  | @escaped p b _ ih =>
    cases n with
    | zero => cases bound
    | succ n =>
      obtain ⟨next, same⟩ := matchChunk_escaped n p state
      rw [same]
      exact ih (Nat.le_of_succ_le (Nat.le_of_succ_le_succ bound)) next
  | @bracket r p first inside _ ih =>
    cases n with
    | zero => cases bound
    | succ n =>
      obtain ⟨next, same⟩ := matchChunk_ranges inside (bracketBody_plain first) n state
      rw [same]
      simp only [List.length_cons, List.length_append] at bound
      exact ih (by omega) next
  | @negated r p inside _ ih =>
    cases n with
    | zero => cases bound
    | succ n =>
      obtain ⟨next, same⟩ := matchChunk_ranges (q := byte '^' :: (r ++ byte ']' :: p)) inside rfl n state
      rw [same]
      simp only [List.length_cons, List.length_append] at bound
      exact ih (by omega) next

theorem wellFormed_matchChunk (bound : p.length ≤ n) (read : (matchChunk n p state).isSome) :
    WellFormed p := by
  induction n generalizing p state with
  | zero =>
    obtain rfl := List.eq_nil_of_length_eq_zero (Nat.le_zero.mp bound)
    exact .nil
  | succ n ih =>
    cases p with
    | nil => exact .nil
    | cons b p =>
      have less := Nat.le_of_succ_le_succ bound
      by_cases bracket : b = byte '['
      · subst bracket
        rcases matchChunk_bracket n p state with ⟨code, _, none⟩ | ⟨code, _, tail, next, inside, same⟩
        · rw [none] at read
          cases read
        · rw [same] at read
          have shorter := bracketRanges_shorter inside
          exact bracketRanges_canonical (ih (by omega) read) inside
      · by_cases backslash : b = byte '\\'
        · subst backslash
          cases p with
          | nil => cases read
          | cons c p =>
            obtain ⟨next, same⟩ := matchChunk_escaped n p state
            rw [same] at read
            exact .escaped (ih (Nat.le_of_succ_le less) read)
        · obtain ⟨next, same⟩ := matchChunk_plain bracket backslash n p state
          rw [same] at read
          exact .plain bracket backslash (ih less read)

theorem chunkMatch_isSome (chunk name : Bytes) :
    (chunkMatch chunk name).isSome ↔ WellFormed chunk :=
  ⟨wellFormed_matchChunk (Nat.le_refl _), fun given => given.matched (Nat.le_refl _) _⟩

instance : DecidablePred WellFormed := fun chunk => decidable_of_iff _ (chunkMatch_isSome chunk [])

end Minilang.Pattern
