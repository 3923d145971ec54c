import Minilang.Proofs.CursorMotion

namespace Minilang.Cursor

open Alphabet

-- Scanning as a loop that moves one cursor over the source. A round asks for bytes, so it
-- could ask for one outside the source; it turns digits into a number, so it could meet some
-- that are none; and the loop could go round for ever.
inductive Breakdown where
  | outside
  | notNumeral
  | unfinished

inductive Finding where
  | token (t : Token)
  | blank
  | foreign (e : LexError)

def within {α : Type} : Option α → Except Breakdown α
  | some found => .ok found
  | none => .error .outside

def unsigned? (digits : List UInt8) : Option Nat :=
  if digits.isEmpty || digits.any (!isDigit ·) then none else some (digitsValue digits)

def integer? (text : List UInt8) : Option Int :=
  match text with
  | [] => none
  | b :: rest =>
    if b == 45 then (unsigned? rest).map fun n => -(n : Int)
    else if b == 43 then (unsigned? rest).map fun n => (n : Int)
    else (unsigned? (b :: rest)).map fun n => (n : Int)

def round (c : Cursor) : Except Breakdown (Finding × Cursor) := do
  let b ← within c.current?
  if isDigit b then
    let (run, last) ← within (c.readWhile isDigit)
    match integer? run with
    | some value => return (.token ⟨c.position, .number, lexemeOf run, some value⟩, last)
    | none => throw .notNumeral
  else if isOperator b then
    return (.token (.single c.position .operator b), c)
  else if isParen b then
    return (.token (.single c.position .paren b), c)
  else if isBrace b then
    return (.token (.single c.position .brace b), c)
  else if isWord b then
    let (run, last) ← within (c.readWhile isWord)
    return (.token (.word c.position run), last)
  else if b == newline then
    return (.blank, c)
  else if b == semicolon then
    return (.token (.single c.position .semicolon b), c)
  else if isSpace b then
    let (_, last) ← within (c.readWhile isSpace)
    return (.blank, last)
  else
    return (.foreign ⟨c.position, (Text.decodeFirst c.ahead).1⟩, c)

def loop (bound : Nat) (c : Cursor) : Except Breakdown (Except LexError (List Token)) :=
  if c.done then .ok (.ok [])
  else
    match bound with
    | 0 => .error .unfinished
    | bound + 1 => do
      let (finding, last) ← c.round
      match finding with
      | .foreign e => return .error e
      | .blank => loop bound (← within last.advance?)
      | .token t => return (← loop bound (← within last.advance?)).map (t :: ·)

section Rounds

variable {b : UInt8} {q : UInt8 → Bool}

def LeadsTo (c : Cursor) (finding : Finding) (next : Cursor) : Prop :=
  ∃ last, c.round = .ok (finding, last) ∧ last.advance? = some next

theorem within_some {α : Type} (found : α) : within (some found) = pure found := rfl

theorem current?_between (before bs : List UInt8) :
    (between before (b :: bs)).current? = some b := rfl

theorem readWhile_here (before bs : List UInt8) (first : q b) :
    ∃ last, (between before (b :: bs)).readWhile q = some ((b :: bs).takeWhile q, last) ∧
      last.advance? =
        some (between (before ++ (b :: bs).takeWhile q) ((b :: bs).dropWhile q)) := by
  have read := readWhile_between before (Token.takeWhile_inside q (b :: bs))
    (by simp [first]) (Token.dropWhile_breaks q (b :: bs))
  rwa [List.takeWhile_append_dropWhile] at read

theorem integer?_digits {run : List UInt8} (inside : ∀ b ∈ run, isDigit b) (filled : run ≠ []) :
    integer? run = some (digitsValue run : Int) := by
  cases run with
  | nil => exact absurd rfl filled
  | cons b rest =>
    have unsigned : unsigned? (b :: rest) = some (digitsValue (b :: rest)) := by
      unfold unsigned?
      rw [if_neg]
      simpa using inside
    have digit := inside b (by simp)
    have minus : b ≠ 45 := by
      intro same
      simp [same, isDigit] at digit
    have plus : b ≠ 43 := by
      intro same
      simp [same, isDigit] at digit
    simp [integer?, minus, plus, unsigned]

theorem round_number (before bs : List UInt8) (digit : isDigit b) :
    (between before (b :: bs)).LeadsTo
      (.token (.number (.behind before) ((b :: bs).takeWhile isDigit)))
      (between (before ++ (b :: bs).takeWhile isDigit) ((b :: bs).dropWhile isDigit)) := by
  obtain ⟨last, read, next⟩ := readWhile_here before bs digit
  have value := integer?_digits (Token.takeWhile_inside isDigit (b :: bs)) (by simp [digit])
  refine ⟨last, ?_, next⟩
  rw [round, current?_between, within_some, pure_bind, if_pos digit, read, within_some, pure_bind]
  simp only [value]
  rfl

theorem round_word (before bs : List UInt8) (word : isWord b) (start : b ≠ 45) :
    (between before (b :: bs)).LeadsTo
      (.token (.word (.behind before) ((b :: bs).takeWhile isWord)))
      (between (before ++ (b :: bs).takeWhile isWord) ((b :: bs).dropWhile isWord)) := by
  obtain ⟨last, read, next⟩ := readWhile_here before bs word
  obtain ⟨digit, operator, paren, brace⟩ := Token.word_start word start
  refine ⟨last, ?_, next⟩
  rw [round, current?_between, within_some, pure_bind, read, within_some]
  simp only [digit, operator, paren, brace, word, Bool.false_eq_true, if_false, if_true, pure_bind]
  rfl

theorem round_single {kind : TokenKind} (before bs : List UInt8)
    (known : (b, kind) ∈ Token.singles) :
    (between before (b :: bs)).LeadsTo (.token (.single (.behind before) kind b))
      (between (before ++ [b]) bs) := by
  refine ⟨between before (b :: bs), ?_, advance?_between⟩
  have each : ∀ s ∈ Token.singles, (between before (s.1 :: bs)).round =
      .ok (.token (.single (.behind before) s.2 s.1), between before (s.1 :: bs)) := by
    simp only [Token.singles, List.forall_mem_cons]
    exact ⟨rfl, rfl, rfl, rfl, rfl, rfl, rfl, rfl, rfl, rfl, rfl, by simp⟩
  exact each (b, kind) known

theorem round_newline (before bs : List UInt8) :
    (between before (newline :: bs)).LeadsTo .blank (between (before ++ [newline]) bs) :=
  ⟨between before (newline :: bs), rfl, advance?_between⟩

theorem space_start (space : isSpace b) : isDigit b = false ∧ isOperator b = false ∧
    isParen b = false ∧ isBrace b = false ∧ isWord b = false ∧ (b == newline) = false ∧
    (b == semicolon) = false := by
  simp only [isSpace, isDigit, isOperator, isParen, isBrace, isWord, newline, semicolon] at *
  refine ⟨?_, ?_, ?_, ?_, ?_, ?_, ?_⟩ <;> grind

theorem round_spaces (before bs : List UInt8) (space : isSpace b) :
    (between before (b :: bs)).LeadsTo .blank
      (between (before ++ (b :: bs).takeWhile isSpace) ((b :: bs).dropWhile isSpace)) := by
  obtain ⟨last, read, next⟩ := readWhile_here before bs space
  obtain ⟨digit, operator, paren, brace, word, line, mark⟩ := space_start space
  refine ⟨last, ?_, next⟩
  rw [round, current?_between, within_some, pure_bind, read, within_some]
  simp only [digit, operator, paren, brace, word, line, mark, space, Bool.false_eq_true, if_false,
    if_true, pure_bind]
  rfl

theorem round_foreign (before bs : List UInt8) (foreign : contains b = false) :
    (between before (b :: bs)).round =
      .ok (.foreign ⟨.behind before, (Text.decodeFirst (b :: bs)).1⟩, between before (b :: bs)) := by
  simp only [contains, Bool.or_eq_false_iff] at foreign
  obtain ⟨⟨⟨⟨⟨⟨⟨digit, operator⟩, paren⟩, brace⟩, word⟩, line⟩, mark⟩, space⟩ := foreign
  rw [round, current?_between, within_some, pure_bind]
  simp only [digit, operator, paren, brace, word, line, mark, space, Bool.false_eq_true, if_false]
  rfl

end Rounds

section Loop

variable {n : Nat} {c next : Cursor} {t : Token} {answer : Except LexError (List Token)}

theorem loop_token (more : c.done = false) (leads : c.LeadsTo (.token t) next)
    (later : loop n next = .ok answer) : loop (n + 1) c = .ok (answer.map (t :: ·)) := by
  obtain ⟨last, found, moved⟩ := leads
  rw [loop, more, found]
  show (within last.advance? >>= fun next => loop n next >>= _) = _
  rw [moved, within_some, pure_bind, later]
  rfl

theorem loop_blank (more : c.done = false) (leads : c.LeadsTo .blank next)
    (later : loop n next = .ok answer) : loop (n + 1) c = .ok answer := by
  obtain ⟨last, found, moved⟩ := leads
  rw [loop, more, found]
  show (within last.advance? >>= fun next => loop n next) = _
  rw [moved, within_some, pure_bind, later]

theorem behind_takeWhile {q : UInt8 → Bool} (line : q newline = false) (before bs : List UInt8) :
    Position.behind (before ++ bs.takeWhile q) =
      (Position.behind before).right (bs.takeWhile q).length := by
  apply Position.behind_run
  intro b member same
  have inside := Token.takeWhile_inside q bs b member
  rw [same, line] at inside
  cases inside

-- The bytes ahead bound the rounds, because each of them passes at least one byte.
theorem loop_between (n : Nat) (before after : List UInt8) (enough : after.length ≤ n) :
    loop n (between before after) = .ok (Token.scanAt (.behind before) after) := by
  induction n generalizing before after with
  | zero =>
    have empty : after = [] := by simpa using enough
    subst empty
    rfl
  | succ n ih =>
    cases after with
    | nil => rfl
    | cons b bs =>
      have more : (between before (b :: bs)).done = false := rfl
      have behind : bs.length ≤ n := by simpa using enough
      cases known : contains b with
      | false =>
        rw [loop, more, round_foreign before bs known, Token.scanAt_foreign known]
        rfl
      | true =>
        rcases Token.contains_cases known with digit | ⟨kind, single⟩ | ⟨word, start⟩ | rfl | space
        · have later := ih (before ++ (b :: bs).takeWhile isDigit) _
            (Nat.le_trans (Token.dropWhile_shorter digit) behind)
          have scanned := Token.scanAt_number (p := .behind before)
            (Token.takeWhile_inside isDigit (b :: bs)) (by simp [digit])
            (Token.dropWhile_breaks isDigit (b :: bs))
          rw [List.takeWhile_append_dropWhile, ← behind_takeWhile rfl] at scanned
          rw [loop_token more (round_number before bs digit) later, scanned]
        · have later := ih (before ++ [b]) bs behind
          have spelled : Token.Spelled [b] (.single (.behind before) kind b) := .single single
          rw [Position.behind_byte (spelled.no_newline b (by simp))] at later
          rw [loop_token more (round_single before bs single) later, Token.scanAt_single single]
        · have later := ih (before ++ (b :: bs).takeWhile isWord) _
            (Nat.le_trans (Token.dropWhile_shorter word) behind)
          have scanned := Token.scanAt_word (p := .behind before)
            (Token.takeWhile_inside isWord (b :: bs)) (by simp [word]) (by simp [word, start])
            (Token.dropWhile_breaks isWord (b :: bs))
          rw [List.takeWhile_append_dropWhile, ← behind_takeWhile rfl] at scanned
          rw [loop_token more (round_word before bs word start) later, scanned]
        · have later := ih (before ++ [newline]) bs behind
          rw [Position.behind_newline] at later
          rw [loop_blank more (round_newline before bs) later, Token.scanAt_newline]
        · have later := ih (before ++ (b :: bs).takeWhile isSpace) _
            (Nat.le_trans (Token.dropWhile_shorter space) behind)
          have run : (b :: bs).takeWhile isSpace = b :: bs.takeWhile isSpace :=
            List.takeWhile_cons_of_pos space
          rw [behind_takeWhile rfl, run, List.length_cons, Nat.add_comm] at later
          rw [loop_blank more (round_spaces before bs space) (run ▸ later), Token.scanAt_spaces space,
            List.dropWhile_cons_of_pos space]

theorem loop_scan {bound : Nat} {source : List UInt8} (enough : source.length ≤ bound) :
    loop bound (start source) = .ok (Token.scan source) :=
  loop_between bound [] source enough

end Loop

end Minilang.Cursor
