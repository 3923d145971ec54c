import Minilang.Proofs.FrontEnd

namespace Minilang

def withoutLeadingZeros (digits : String) : String :=
  if digits.toList.all (· == '0') then "0"
  else String.ofList (digits.toList.dropWhile (· == '0'))

theorem digitChar_digit {c : Char} (digit : isDigitChar c) :
    c.toNat - '0'.toNat < 10 ∧ (c.toNat - '0'.toNat).digitChar = c := by
  have bounds := digit_bounds digit
  have zero : '0'.toNat = 48 := rfl
  refine ⟨by omega, ?_⟩
  have each : ∀ d < 10, d.digitChar = Char.ofNat (48 + d) := by decide
  rw [each _ (by omega), zero, Nat.add_sub_cancel' bounds.1, Char.ofNat_toNat]

-- Once a digit that is not zero has been read, every further one is written behind it.
theorem toDigits_behind {cs : List Char} {before : Nat} (positive : 0 < before)
    (digits : ∀ c ∈ cs, isDigitChar c) :
    Nat.toDigits 10 (Nat.ofDigitChars 10 cs before) = Nat.toDigits 10 before ++ cs := by
  induction cs generalizing before with
  | nil => simp
  | cons c cs ih =>
    obtain ⟨small, same⟩ := digitChar_digit (digits c (by simp))
    have later := ih (show 0 < 10 * before + (c.toNat - '0'.toNat) by omega)
      fun d member => digits d (List.mem_cons_of_mem c member)
    rw [Nat.ofDigitChars_cons, later, ← Nat.toDigits_append_toDigits (by decide) positive small,
      Nat.toDigits_of_lt_base small, same, List.append_assoc]
    rfl

theorem toDigits_numeral {cs : List Char} (digits : ∀ c ∈ cs, isDigitChar c) :
    Nat.toDigits 10 (Nat.ofDigitChars 10 cs 0) =
      if cs.all (· == '0') then ['0'] else cs.dropWhile (· == '0') := by
  induction cs with
  | nil => rfl
  | cons c cs ih =>
    have later := fun d member => digits d (List.mem_cons_of_mem c member)
    by_cases zero : c = '0'
    · subst zero
      rw [Nat.ofDigitChars_cons, List.all_cons, List.dropWhile_cons_of_pos rfl]
      exact ih later
    · obtain ⟨small, same⟩ := digitChar_digit (digits c (by simp))
      have positive : 0 < c.toNat - '0'.toNat := by
        refine Nat.pos_of_ne_zero fun nothing => zero ?_
        rw [← same, nothing]
        rfl
      rw [Nat.ofDigitChars_cons, Nat.mul_zero, Nat.zero_add, toDigits_behind positive later,
        Nat.toDigits_of_lt_base small, same]
      simp [zero]

theorem repr_numeralValue (numeral : IsNumeral text) :
    (numeralValue text).repr = withoutLeadingZeros text := by
  rw [Nat.repr_eq_ofList_toDigits, numeralValue, toDigits_numeral numeral.2, withoutLeadingZeros]
  split <;> rfl

theorem withoutLeadingZeros_repr (n : Nat) : withoutLeadingZeros n.repr = n.repr := by
  obtain ⟨numeral, value⟩ := numeral_repr n
  rw [← repr_numeralValue numeral, value]

def IsDecimal (text : String) (v : Int) : Prop :=
  ∃ digits, IsNumeral digits ∧ withoutLeadingZeros digits = digits ∧
    numeralValue digits = v.natAbs ∧ text = if v < 0 then "-" ++ digits else digits

theorem decimal_eq (v : Int) :
    decimal v = if v < 0 then "-" ++ v.natAbs.repr else v.natAbs.repr := by
  rw [decimal, Int.toString_eq_repr, Int.repr_eq_if]
  split
  · rw [if_neg (by omega), show v.toNat = v.natAbs by omega]
  · rw [if_pos (by omega), show (-v).toNat = v.natAbs by omega]

theorem decimal_isDecimal (v : Int) : IsDecimal (decimal v) v := by
  obtain ⟨numeral, value⟩ := numeral_repr v.natAbs
  exact ⟨_, numeral, withoutLeadingZeros_repr _, value, decimal_eq v⟩

@[simp]
theorem bytesOf_append (first second : String) :
    Text.bytesOf (first ++ second) = Text.bytesOf first ++ Text.bytesOf second := by
  simp only [bytesOf_toList, String.toList_append, List.flatMap_append]

def printing (operand : String) : List UInt8 := Text.bytesOf ("print " ++ operand ++ ";")

def printItems (operand : List Token) : List (Token × List UInt8) :=
  (mark .keyword "print", [32]) :: (operand.map (·, []) ++ [(mark .semicolon ";", [])])

theorem written_printItems (operand : List Token) :
    Token.written (printItems operand) = printing (String.join (operand.map (·.lexeme))) := by
  have inside : Token.written (operand.map (·, [])) =
      Text.bytesOf (String.join (operand.map (·.lexeme))) := by
    induction operand with
    | nil => simp [Token.written, bytesOf_toList]
    | cons t operand ih =>
      rw [List.map_cons, List.map_cons, String.join_cons, bytesOf_append, ← ih]
      simp [Token.written]
  have blank : Text.bytesOf "print " = Text.bytesOf "print" ++ [32] := by
    simp [bytesOf_toList]
    rfl
  rw [printing, bytesOf_append, bytesOf_append, ← inside, blank]
  simp [Token.written, printItems, mark]

theorem printItems_separated {operand : List Token}
    (apart : operand.IsChain fun t u => ¬Token.Merges t u) :
    Token.Separated (printItems operand) := by
  unfold Token.Separated printItems
  refine List.isChain_cons.mpr ⟨fun next _ empty => absurd empty (by simp), ?_⟩
  refine List.isChain_append.mpr ⟨?_, .singleton _, ?_⟩
  · rw [List.isChain_map]
    exact apart.imp fun _ _ merges _ => merges
  · intro last _ next first _
    cases first
    simp [Token.Merges, mark, Token.isWordKind, Token.is]

theorem face_is {t : Token} {sort : TokenKind} (same : t.face = (mark sort text).face) :
    t.is sort text := by
  simp only [Token.face, mark, Prod.mk.injEq] at same
  exact Token.is_iff.mpr ⟨same.1, same.2.1⟩

theorem scan_printing {operand : List Token} (valid : ∀ t ∈ operand, t.Valid)
    (apart : operand.IsChain fun t u => ¬Token.Merges t u) :
    ∃ p ts q, Token.scan (printing (String.join (operand.map (·.lexeme)))) = .ok (p :: ts ++ [q]) ∧
      p.is .keyword "print" ∧ ts.map Token.face = operand.map Token.face ∧ q.is .semicolon ";" := by
  have keyword : (mark .keyword "print").Valid := keyword_valid (by decide)
  have semicolon : (mark .semicolon ";").Valid := mark_valid (by decide)
  have fine : Token.AllValid (printItems operand) := by
    simpa [Token.AllValid, printItems, keyword, semicolon, Token.IsGap, or_imp, forall_and] using
      valid
  obtain ⟨tokens, read, _, same, _⟩ := Token.scanAt_written _ fine .origin
  have faces := same (printItems_separated apart)
  simp only [printItems, List.map_cons, List.map_append, List.map_map, List.map_nil] at faces
  obtain ⟨p, others, rfl, first, faces⟩ := List.map_eq_cons_iff.mp faces
  obtain ⟨ts, ending, rfl, inside, closed⟩ := List.map_eq_append_iff.mp faces
  obtain ⟨q, rfl, last⟩ := List.map_eq_singleton_iff.mp closed
  rw [written_printItems] at read
  exact ⟨p, ts, q, by rw [Token.scan_eq, read]; rfl, face_is first, inside, face_is last⟩

section Printing

variable {options : RunOptions} {bound : Nat} {path : String} {v : Int}

theorem print_runs {e : Expr} (value : e.eval options.undefined .empty = (.ok v, .empty))
    (p : Token) (bound : Nat) :
    ∃ after, execBlock options bound [.print p e] (.start .empty none) = .finished after ∧
      after.printed = #[v] := by
  let begun := (Machine.start .empty none).record options.tracing (.print, p.position)
  have fresh : begun.store = .empty ∧ begun.sink = none ∧ begun.printed = #[] := by
    unfold begun Machine.record
    split <;> exact ⟨rfl, rfl, rfl⟩
  obtain ⟨store, sink, printed⟩ := fresh
  have entered : (Machine.start .empty none).record options.tracing (.print, p.position) = begun :=
    rfl
  refine ⟨{ begun with store := .empty, printed := #[v] }, ?_, rfl⟩
  simp only [execBlock, Stmt.exec, Machine.evaluate, entered, store, value]
  simp [Machine.print, sink, printed, Progress.andThen]

-- An operand that is read as an expression with a value, which neither binds nor reads a name.
theorem operand_prints {operand : List Token} (valid : ∀ t ∈ operand, t.Valid)
    (apart : operand.IsChain fun t u => ¬Token.Merges t u)
    (written : String.join (operand.map (·.lexeme)) = text)
    (reads : ∀ ts, ts.map Token.face = operand.map Token.face → ∃ e,
      Grammar.Expression .additive ts e ∧ e.eval options.undefined .empty = (.ok v, .empty)) :
    ∃ ending, runSource options bound none path (printing text) = some ending ∧
      ending.failure = none ∧ ending.output = decimal v ++ "\n" := by
  subst written
  obtain ⟨p, ts, q, scanned, keyword, inside, semicolon⟩ := scan_printing valid apart
  obtain ⟨e, derived, value⟩ := reads ts inside
  have program : Grammar.Statements (p :: ts ++ [q]) [.print p e] := by
    simpa using Grammar.Statements.cons (.print keyword (.expression derived) semicolon) .nil
  obtain ⟨after, ran, printed⟩ := print_runs value p bound
  refine ⟨⟨some after, none⟩, ?_, rfl, ?_⟩
  · simp only [runSource, Program.compile, scanned, Parse.program_read program, execute, ran]
  · simp [Ending.output, Machine.output, Machine.outputLines, printed]

end Printing

theorem numeral_derived {t : Token} {digits : String}
    (same : t.face = (.number, digits, some (numeralValue digits : Int))) :
    Grammar.Expression level [t] (.number t (some (numeralValue digits : Int))) := by
  simp only [Token.face, Prod.mk.injEq] at same
  rw [← same.2.2]
  exact Grammar.Expression.raise (.number same.1)

def numeralToken (digits : String) : Token :=
  ⟨.origin, .number, digits, some (numeralValue digits : Int)⟩

theorem numeral_prints (numeral : IsNumeral digits) (options : RunOptions) (bound : Nat)
    (path : String) :
    ∃ ending, runSource options bound none path (printing digits) = some ending ∧
      ending.failure = none ∧ ending.output = decimal (numeralValue digits : Int) ++ "\n" := by
  have valid : (numeralToken digits).Valid := .number rfl numeral rfl
  apply operand_prints (List.forall_mem_singleton.mpr valid) (.singleton _) (by simp [numeralToken])
  intro ts inside
  obtain ⟨t, rfl, same⟩ := List.map_eq_singleton_iff.mp inside
  exact ⟨_, numeral_derived same, rfl⟩

theorem negated_prints (numeral : IsNumeral digits) (options : RunOptions) (bound : Nat)
    (path : String) :
    ∃ ending, runSource options bound none path (printing ("-" ++ digits)) = some ending ∧
      ending.failure = none ∧ ending.output = decimal (-(numeralValue digits : Int)) ++ "\n" := by
  have valid : (numeralToken digits).Valid := .number rfl numeral rfl
  have minus : (mark .operator "-").Valid := mark_valid (by decide)
  have apart : ¬Token.Merges (mark .operator "-") (numeralToken digits) := by
    simp [Token.Merges, mark, Token.isWordKind]
  apply operand_prints (List.forall_mem_cons.mpr ⟨minus, List.forall_mem_singleton.mpr valid⟩)
    (List.isChain_pair.mpr apart) (by simp [numeralToken, mark])
  intro ts inside
  obtain ⟨sign, others, rfl, first, inside⟩ := List.map_eq_cons_iff.mp inside
  obtain ⟨t, rfl, same⟩ := List.map_eq_singleton_iff.mp inside
  exact ⟨_, .ofProduct (.ofUnary (.negation (face_is first) (numeral_derived same))), rfl⟩

theorem decimal_text_round_trips (options : RunOptions) (bound : Nat) (path : String) :
    (∀ v : Int, IsDecimal (decimal v) v ∧
      ∃ ending, runSource options bound none path (printing (decimal v)) = some ending ∧
        ending.failure = none ∧ ending.output = decimal v ++ "\n") ∧
    ∀ digits, IsNumeral digits →
      ∃ ending, runSource options bound none path (printing digits) = some ending ∧
        ending.failure = none ∧ ending.output = withoutLeadingZeros digits ++ "\n" := by
  refine ⟨fun v => ⟨decimal_isDecimal v, ?_⟩, fun digits numeral => ?_⟩
  · obtain ⟨numeral, value⟩ := numeral_repr v.natAbs
    by_cases negative : v < 0
    · have text : decimal v = "-" ++ v.natAbs.repr := by rw [decimal_eq, if_pos negative]
      have again := negated_prints numeral options bound path
      rwa [value, ← text, show -(v.natAbs : Int) = v by omega] at again
    · have text : decimal v = v.natAbs.repr := by rw [decimal_eq, if_neg negative]
      have again := numeral_prints numeral options bound path
      rwa [value, ← text, show (v.natAbs : Int) = v by omega] at again
  · have natural : decimal (numeralValue digits : Int) = (numeralValue digits).repr := rfl
    rw [← repr_numeralValue numeral, ← natural]
    exact numeral_prints numeral options bound path

theorem decimal_text_round_trips_padded :
    (∃ ending, runSource {} 0 none "p" (printing "-12") = some ending ∧
      ending.failure = none ∧ ending.output = "-12\n") ∧
    IsNumeral "0070" ∧ ∃ ending, runSource {} 0 none "p" (printing "0070") = some ending ∧
      ending.failure = none ∧ ending.output = "70\n" := by
  obtain ⟨integers, digits⟩ := decimal_text_round_trips {} 0 "p"
  have numeral : IsNumeral "0070" := by decide
  have negative := (integers (-12)).2
  have padded := digits "0070" numeral
  rw [show decimal (-12) = "-12" from rfl, show "-12" ++ "\n" = "-12\n" from rfl] at negative
  rw [show withoutLeadingZeros "0070" ++ "\n" = "70\n" by decide] at padded
  exact ⟨negative, numeral, padded⟩

end Minilang
