import Minilang.Token.Scan

namespace Minilang.Token

open Alphabet

section Steps

variable {b : UInt8} {bs run rest : List UInt8} {p : Position}

def scanAt (p : Position) (bytes : List UInt8) : Except LexError (List Token) :=
  scanFrom bytes.length p bytes

theorem scan_eq (source : List UInt8) : scan source = scanAt .origin source := rfl

theorem dropWhile_shorter {q : UInt8 → Bool} (holds : q b) :
    ((b :: bs).dropWhile q).length ≤ bs.length := by
  rw [List.dropWhile_cons_of_pos holds]
  exact (List.dropWhile_sublist q).length_le

theorem scanFrom_agree (n m : Nat) (p : Position) (bs : List UInt8)
    (first : bs.length ≤ n) (second : bs.length ≤ m) : scanFrom n p bs = scanFrom m p bs := by
  induction n generalizing m p bs with
  | zero =>
    have empty : bs = [] := by simpa using first
    subst empty
    cases m <;> rfl
  | succ n ih =>
    cases bs with
    | nil => cases m <;> rfl
    | cons b bs =>
      cases m with
      | zero => simp at second
      | succ m =>
        simp only [List.length_cons, Nat.add_le_add_iff_right] at first second
        -- Every branch goes on with no more bytes than stand behind the first one.
        have later (q : Position) (rest : List UInt8) (shorter : rest.length ≤ bs.length) :
            scanFrom n q rest = scanFrom m q rest :=
          ih m q rest (by omega) (by omega)
        have ones := later (p.right 1) bs (Nat.le_refl _)
        have line := later p.nextRow bs (Nat.le_refl _)
        simp only [scanFrom, ones, line]
        refine ite_congr rfl (fun digit => ?_) fun _ => ?_
        · rw [later _ _ (dropWhile_shorter digit)]
        refine ite_congr rfl (fun _ => rfl) fun _ => ite_congr rfl (fun _ => rfl) fun _ => ?_
        refine ite_congr rfl (fun _ => rfl) fun _ => ite_congr rfl (fun word => ?_) fun _ => ?_
        · rw [later _ _ (dropWhile_shorter word)]
        refine ite_congr rfl (fun _ => rfl) fun _ => ite_congr rfl (fun _ => rfl) fun _ => ?_
        refine ite_congr rfl (fun space => ?_) fun _ => rfl
        rw [later _ _ (dropWhile_shorter space)]

def singles : List (UInt8 × TokenKind) :=
  [(42, .operator), (47, .operator), (43, .operator), (45, .operator), (61, .operator),
    (37, .operator), (40, .paren), (41, .paren), (123, .brace), (125, .brace), (59, .semicolon)]

-- The rest behind a run must not go on with it.
def Breaks (q : UInt8 → Bool) (rest : List UInt8) : Prop := ∀ b ∈ rest.head?, q b = false

theorem takeWhile_run {q : UInt8 → Bool} (inside : ∀ b ∈ run, q b) (breaks : Breaks q rest) :
    (run ++ rest).takeWhile q = run ∧ (run ++ rest).dropWhile q = rest := by
  rw [List.takeWhile_append_of_pos inside, List.dropWhile_append_of_pos inside]
  cases rest with
  | nil => simp
  | cons b rest =>
    have other := breaks b rfl
    simp [other]

theorem scanAt_number (inside : ∀ b ∈ run, isDigit b) (filled : run ≠ [])
    (breaks : Breaks isDigit rest) :
    scanAt p (run ++ rest) = (scanAt (p.right run.length) rest).map (number p run :: ·) := by
  obtain ⟨taken, dropped⟩ := takeWhile_run inside breaks
  cases run with
  | nil => exact absurd rfl filled
  | cons b run =>
    have digit := inside b (by simp)
    rw [List.cons_append] at taken dropped ⊢
    rw [scanAt, List.length_cons, scanFrom, if_pos digit]
    simp only [taken, dropped]
    rw [scanFrom_agree _ rest.length _ _ (by simp) (Nat.le_refl _), scanAt]

theorem word_start (word : isWord b) (start : b ≠ 45) :
    isDigit b = false ∧ isOperator b = false ∧ isParen b = false ∧ isBrace b = false := by
  simp only [isWord, isDigit, isOperator, isParen, isBrace] at *
  refine ⟨?_, ?_, ?_, ?_⟩ <;> grind

theorem scanAt_word (inside : ∀ b ∈ run, isWord b) (filled : run ≠ []) (start : run.head? ≠ some 45)
    (breaks : Breaks isWord rest) :
    scanAt p (run ++ rest) = (scanAt (p.right run.length) rest).map (word p run :: ·) := by
  obtain ⟨taken, dropped⟩ := takeWhile_run inside breaks
  cases run with
  | nil => exact absurd rfl filled
  | cons b run =>
    have word := inside b (by simp)
    obtain ⟨digit, operator, paren, brace⟩ := word_start word (by simpa using start)
    rw [List.cons_append] at taken dropped ⊢
    rw [scanAt, List.length_cons, scanFrom]
    simp only [digit, operator, paren, brace, word, taken, dropped, Bool.false_eq_true, if_false,
      if_true]
    rw [scanFrom_agree _ rest.length _ _ (by simp) (Nat.le_refl _), scanAt]

theorem scanAt_single {kind : TokenKind} (known : (b, kind) ∈ singles) :
    scanAt p (b :: rest) = (scanAt (p.right 1) rest).map (single p kind b :: ·) := by
  have each : ∀ s ∈ singles, scanAt p (s.1 :: rest) =
      (scanAt (p.right 1) rest).map (single p s.2 s.1 :: ·) := by
    simp only [singles, List.forall_mem_cons]
    exact ⟨rfl, rfl, rfl, rfl, rfl, rfl, rfl, rfl, rfl, rfl, rfl, by simp⟩
  exact each (b, kind) known

theorem scanAt_newline : scanAt p (newline :: rest) = scanAt p.nextRow rest := rfl

theorem right_right (p : Position) (n m : Nat) : (p.right n).right m = p.right (n + m) := by
  simp [Position.right, Int.add_assoc]

theorem scanAt_spaces (space : isSpace b) : scanAt p (b :: rest) =
    scanAt (p.right (1 + (rest.takeWhile isSpace).length)) (rest.dropWhile isSpace) := by
  have shorter := (List.dropWhile_sublist (l := rest) isSpace).length_le
  have agree := scanFrom_agree rest.length _ (p.right (1 + (rest.takeWhile isSpace).length)) _ shorter
    (Nat.le_refl _)
  rw [scanAt, scanAt, ← agree, Nat.add_comm]
  simp only [isSpace, Bool.or_eq_true, beq_iff_eq] at space
  obtain (((rfl | rfl) | rfl) | rfl) | rfl := space <;> rfl

-- A run of blanks may as well be passed one by one.
theorem scanAt_space (space : isSpace b) : scanAt p (b :: rest) = scanAt (p.right 1) rest := by
  rw [scanAt_spaces space]
  cases rest with
  | nil => rfl
  | cons c rest =>
    by_cases more : isSpace c
    · rw [scanAt_spaces more, right_right, List.takeWhile_cons_of_pos more,
        List.dropWhile_cons_of_pos more, List.length_cons, Nat.add_comm 1 (List.length _)]
    · rw [List.takeWhile_cons_of_neg more, List.dropWhile_cons_of_neg more]
      rfl

theorem single_operator (operator : isOperator b) : (b, .operator) ∈ singles := by
  simp only [isOperator, Bool.or_eq_true, beq_iff_eq] at operator
  obtain ((((rfl | rfl) | rfl) | rfl) | rfl) | rfl := operator <;> decide

theorem single_paren (paren : isParen b) : (b, .paren) ∈ singles := by
  simp only [isParen, Bool.or_eq_true, beq_iff_eq] at paren
  obtain rfl | rfl := paren <;> decide

theorem single_brace (brace : isBrace b) : (b, .brace) ∈ singles := by
  simp only [isBrace, Bool.or_eq_true, beq_iff_eq] at brace
  obtain rfl | rfl := brace <;> decide

theorem contains_cases (known : contains b) : isDigit b ∨ (∃ kind, (b, kind) ∈ singles) ∨
    (isWord b ∧ b ≠ 45) ∨ b = newline ∨ isSpace b := by
  simp only [contains, Bool.or_eq_true, beq_iff_eq] at known
  obtain ((((((digit | operator) | paren) | brace) | word) | line) | mark) | space := known
  · exact .inl digit
  · exact .inr (.inl ⟨_, single_operator operator⟩)
  · exact .inr (.inl ⟨_, single_paren paren⟩)
  · exact .inr (.inl ⟨_, single_brace brace⟩)
  · by_cases minus : b = 45
    · exact .inr (.inl ⟨.operator, by subst minus; decide⟩)
    · exact .inr (.inr (.inl ⟨word, minus⟩))
  · exact .inr (.inr (.inr (.inl line)))
  · exact .inr (.inl ⟨.semicolon, by subst mark; decide⟩)
  · exact .inr (.inr (.inr (.inr space)))

theorem scanAt_foreign (foreign : contains b = false) :
    scanAt p (b :: rest) = .error ⟨p, (Text.decodeFirst (b :: rest)).1⟩ := by
  simp only [contains, Bool.or_eq_false_iff] at foreign
  obtain ⟨⟨⟨⟨⟨⟨⟨digit, operator⟩, paren⟩, brace⟩, word⟩, line⟩, mark⟩, space⟩ := foreign
  rw [scanAt, List.length_cons, scanFrom]
  simp [digit, operator, paren, brace, word, line, mark, space]

theorem takeWhile_inside (q : UInt8 → Bool) (bs : List UInt8) : ∀ b ∈ bs.takeWhile q, q b :=
  List.all_eq_true.mp List.all_takeWhile

theorem dropWhile_breaks (q : UInt8 → Bool) (bs : List UInt8) : Breaks q (bs.dropWhile q) := by
  intro b first
  have stops := List.head?_dropWhile_not q bs
  rwa [Option.mem_def.mp first] at stops

end Steps

-- How every text falls into pieces, up to the first byte outside the alphabet.
inductive Pieces : List UInt8 → Prop where
  | nil : Pieces []
  | number (inside : ∀ b ∈ run, isDigit b) (filled : run ≠ []) (breaks : Breaks isDigit rest)
      (later : Pieces rest) : Pieces (run ++ rest)
  | word (inside : ∀ b ∈ run, isWord b) (filled : run ≠ []) (start : run.head? ≠ some 45)
      (breaks : Breaks isWord rest) (later : Pieces rest) : Pieces (run ++ rest)
  | single {sort : TokenKind} (known : (b, sort) ∈ singles) (later : Pieces rest) :
      Pieces (b :: rest)
  | newline (later : Pieces rest) : Pieces (Alphabet.newline :: rest)
  | space (space : isSpace b) (later : Pieces rest) : Pieces (b :: rest)
  | foreign (foreign : contains b = false) : Pieces (b :: rest)

theorem pieces (bs : List UInt8) : Pieces bs := by
  induction bound : bs.length using Nat.strongRecOn generalizing bs with
  | ind n ih =>
    cases bs with
    | nil => exact .nil
    | cons b bs =>
      have later (rest : List UInt8) (shorter : rest.length ≤ bs.length) : Pieces rest := by
        refine ih rest.length ?_ rest rfl
        rw [← bound, List.length_cons]
        omega
      have behind := later bs (Nat.le_refl _)
      cases known : contains b with
      | false => exact .foreign known
      | true =>
        obtain digit | ⟨kind, single⟩ | ⟨word, start⟩ | rfl | space := contains_cases known
        · rw [← List.takeWhile_append_dropWhile (p := isDigit) (l := b :: bs)]
          exact .number (takeWhile_inside _ _) (by simp [digit]) (dropWhile_breaks _ _)
            (later _ (dropWhile_shorter digit))
        · exact .single single behind
        · rw [← List.takeWhile_append_dropWhile (p := isWord) (l := b :: bs)]
          exact .word (takeWhile_inside _ _) (by simp [word]) (by simp [word, start])
            (dropWhile_breaks _ _) (later _ (dropWhile_shorter word))
        · exact .newline behind
        · exact .space space behind

end Minilang.Token
