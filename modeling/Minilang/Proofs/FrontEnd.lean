import Minilang.Proofs.GrammarExact
import Minilang.Proofs.ReadableTree
import Minilang.Proofs.Rendering
import Minilang.Run.Program

namespace Minilang

open Grammar

-- From a readable tree to a text. Operands are put in parentheses, which leave no trace in
-- a tree, and a blank is written behind each token.
def Spells {α : Type} (D : List Token → α → Prop) (erase : α → α) (x : α) : Prop :=
  ∃ ts found, D ts found ∧ erase found = erase x ∧ ∀ t ∈ ts, t.Valid

def mark (kind : TokenKind) (text : String) : Token := ⟨.origin, kind, text, none⟩

theorem mark_is (kind : TokenKind) (text : String) : (mark kind text).is kind text := by
  simp [mark, Token.is]

theorem mark_valid (known : text ∈ singleLexemes kind) : (mark kind text).Valid := .single known rfl

theorem name_valid (known : IsName name) : (mark .identifier name).Valid :=
  .word (by simp [mark, known.2]) known.1 rfl

theorem numeral_repr (v : Nat) : IsNumeral v.repr ∧ numeralValue v.repr = v := by
  have digits : ∀ c ∈ v.repr.toList, isDigitChar c := by
    rw [Nat.toList_repr]
    intro c member
    have digit := Nat.isDigit_of_mem_toDigits (by decide) (by decide) member
    simpa [Char.isDigit, isDigitChar, Char.le_def] using digit
  refine ⟨⟨?_, digits⟩, ?_⟩
  · rw [Nat.toList_repr]
    exact Nat.toDigits_ne_nil
  · simp [numeralValue]

theorem numeral_valid (v : Nat) : Token.Valid ⟨.origin, .number, v.repr, some v⟩ := by
  obtain ⟨numeral, value⟩ := numeral_repr v
  refine .number rfl numeral ?_
  rw [value]

theorem parens_spell (inner : Spells (Expression .additive) Expr.erase e) :
    Spells (Expression .term) Expr.erase e := by
  obtain ⟨ts, found, derived, same, valid⟩ := inner
  refine ⟨_, found, .parens (mark_is .paren "(") derived (mark_is .paren ")"), same, ?_⟩
  have opening : (mark .paren "(").Valid := mark_valid (by decide)
  have closing : (mark .paren ")").Valid := mark_valid (by decide)
  simpa [or_imp, forall_and, opening, closing] using valid

theorem binary_spells (known : op ∈ binaryOperators)
    (first : Spells (Expression .additive) Expr.erase l)
    (second : Spells (Expression .additive) Expr.erase r) :
    Spells (Expression .additive) Expr.erase (.binary origin op l r) := by
  obtain ⟨ls, left, one, leftSame, leftValid⟩ := parens_spell first
  obtain ⟨rs, right, two, rightSame, rightValid⟩ := parens_spell second
  have derived : Expression .additive (ls ++ mark .operator op :: rs)
      (.binary (mark .operator op) op left right) := by
    obtain sum | product := mem_binaryOperators.mp known
    · exact .sum one.raise rfl sum two.raise
    · exact .ofProduct (.product one.raise rfl product two.raise)
  refine ⟨_, _, derived, ?_, ?_⟩
  · simp only [Expr.erase, Expr.relabel] at *
    rw [leftSame, rightSame]
  · have sign : (mark .operator op).Valid := by
      refine mark_valid ?_
      simp only [binaryOperators, singleLexemes] at *
      grind
    simp only [List.forall_mem_append, List.forall_mem_cons]
    exact ⟨leftValid, sign, rightValid⟩

theorem Expr.Plain.spells {e : Expr} (plain : e.Plain) :
    Spells (Expression .additive) Expr.erase e := by
  induction e with
  | missing => exact absurd plain id
  | assign => exact absurd plain id
  | number origin value =>
    obtain ⟨v, rfl, least⟩ := plain
    obtain ⟨v, rfl⟩ := Int.eq_ofNat_of_zero_le least
    exact ⟨_, _, Expression.raise (.number rfl), rfl, by simpa using numeral_valid v⟩
  | ident origin name =>
    let t := mark .identifier name
    have derived : Expression .term [t] (.ident t name) := .ident rfl
    exact ⟨_, _, derived.raise, rfl, by simpa using name_valid plain⟩
  | unary origin operator operand ih =>
    obtain ⟨rfl, inner⟩ := plain
    obtain ⟨ts, found, derived, same, valid⟩ := parens_spell (ih inner)
    refine ⟨_, _, .ofProduct (.ofUnary (.negation (mark_is .operator "-") derived.raise)), ?_, ?_⟩
    · simp only [erase, relabel] at *
      rw [same]
    · exact List.forall_mem_cons.mpr ⟨mark_valid (by decide), valid⟩
  | binary origin operator left right first second =>
    exact binary_spells plain.1 (first plain.2.1) (second plain.2.2)

theorem Expr.Readable.spells {e : Expr} (readable : e.Readable) :
    Spells AssignmentOrExpression Expr.erase e := by
  cases e with
  | assign origin target value =>
    obtain ⟨⟨target, rfl, known⟩, plain⟩ := readable
    obtain ⟨ts, found, derived, same, valid⟩ := plain.spells
    have kind : (mark .identifier target.name).kind = .identifier := rfl
    refine ⟨_, _, .assignment kind (mark_is .operator "=") derived, ?_, ?_⟩
    · simp only [erase, relabel] at *
      rw [same]
      rfl
    · simp only [List.forall_mem_cons]
      exact ⟨name_valid known, mark_valid (by decide), valid⟩
  | missing | number | ident | unary | binary =>
    obtain ⟨ts, found, derived, same, valid⟩ := Expr.Plain.spells readable
    exact ⟨ts, found, .expression derived, same, valid⟩

theorem keyword_valid (known : isKeyword word) : (mark .keyword word).Valid := by
  refine .word (by simp [mark, known]) ?_ rfl
  simp only [isKeyword, Bool.or_eq_true, beq_iff_eq] at known
  obtain (rfl | rfl) | rfl := known <;> decide

theorem guarded_spells (guard : Expr.Readable c) (body : Spells Statements Stmt.eraseAll ss) :
    ∃ ts found inside, Guarded ts found inside ∧ found.erase = c.erase ∧
      Stmt.eraseAll inside = Stmt.eraseAll ss ∧ ∀ t ∈ ts, t.Valid := by
  obtain ⟨cs, found, derived, same, valid⟩ := guard.spells
  obtain ⟨bs, inside, listed, sameBody, validBody⟩ := body
  refine ⟨_, found, inside, .intro (mark_is .paren "(") derived .absent (mark_is .paren ")")
    (mark_is .brace "\x7b") listed (mark_is .brace "\x7d"), same, sameBody, ?_⟩
  simp only [List.forall_mem_append, List.forall_mem_cons]
  exact ⟨⟨⟨⟨mark_valid (by decide), valid⟩, by simp⟩, mark_valid (by decide),
    mark_valid (by decide), validBody⟩, mark_valid (by decide), by simp⟩

mutual
theorem Stmt.Readable.spells : ∀ s : Stmt, s.Readable → Spells Statement Stmt.erase s
  | .expr e, readable => by
    obtain ⟨ts, found, derived, same, valid⟩ := Expr.Readable.spells readable
    refine ⟨_, _, .expression derived (mark_is .semicolon ";"), ?_, ?_⟩
    · simp only [Stmt.erase, Stmt.relabel, Expr.erase] at *
      rw [same]
    · simp only [List.forall_mem_append, List.forall_mem_singleton]
      exact ⟨valid, mark_valid (by decide)⟩
  | .branch _ c body, readable => by
    obtain ⟨ts, found, inside, derived, same, sameBody, valid⟩ :=
      guarded_spells readable.1 (Stmt.AllReadable.spells body readable.2)
    refine ⟨_, _, .branch (mark_is .keyword "if") derived, ?_, ?_⟩
    · simp only [Stmt.erase, Stmt.eraseAll, Stmt.relabel, Expr.erase] at *
      rw [same, sameBody]
    · exact List.forall_mem_cons.mpr ⟨keyword_valid (by decide), valid⟩
  | .loop _ c body, readable => by
    obtain ⟨ts, found, inside, derived, same, sameBody, valid⟩ :=
      guarded_spells readable.1 (Stmt.AllReadable.spells body readable.2)
    refine ⟨_, _, .loop (mark_is .keyword "while") derived, ?_, ?_⟩
    · simp only [Stmt.erase, Stmt.eraseAll, Stmt.relabel, Expr.erase] at *
      rw [same, sameBody]
    · exact List.forall_mem_cons.mpr ⟨keyword_valid (by decide), valid⟩
  | .print _ e, readable => by
    obtain ⟨ts, found, derived, same, valid⟩ := Expr.Readable.spells readable
    refine ⟨_, _, .print (mark_is .keyword "print") derived (mark_is .semicolon ";"), ?_, ?_⟩
    · simp only [Stmt.erase, Stmt.relabel, Expr.erase] at *
      rw [same]
    · simp only [List.forall_mem_append, List.forall_mem_cons]
      exact ⟨⟨keyword_valid (by decide), valid⟩, mark_valid (by decide), by simp⟩

theorem Stmt.AllReadable.spells :
    ∀ body, Stmt.AllReadable body → Spells Statements Stmt.eraseAll body
  | [], _ => ⟨[], [], .nil, rfl, by simp⟩
  | s :: body, readable => by
    obtain ⟨ts, found, first, same, valid⟩ := Stmt.Readable.spells s readable.1
    obtain ⟨us, others, later, sameOthers, validOthers⟩ := Stmt.AllReadable.spells body readable.2
    refine ⟨_, _, .cons first later, ?_, List.forall_mem_append.mpr ⟨valid, validOthers⟩⟩
    simp only [Stmt.erase, Stmt.eraseAll, Stmt.relabelAll] at *
    rw [same, sameOthers]
end

-- With a blank behind every token, nothing merges.
theorem scan_spaced (ts : List Token) (valid : ∀ t ∈ ts, t.Valid) :
    ∃ source tokens, Token.scan source = .ok tokens ∧
      tokens.map Token.face = ts.map Token.face := by
  let items := ts.map fun t => (t, [(32 : UInt8)])
  have fine : Token.AllValid items := by
    intro item member
    obtain ⟨t, listed, rfl⟩ := List.mem_map.mp member
    exact ⟨valid t listed, by simp [Token.IsGap]⟩
  have separated : Token.Separated items := .of_gaps (by simp [items])
  obtain ⟨tokens, read, _, same, _⟩ := Token.scanAt_written items fine .origin
  refine ⟨Token.written items, tokens, by rw [Token.scan_eq, read], ?_⟩
  rw [same separated, List.map_map]
  rfl

theorem source_ok : Parse.source source = .ok body ↔
    ∃ tokens, Token.scan source = .ok tokens ∧ Parse.program tokens = .ok body := by
  unfold Parse.source
  cases Token.scan source with
  | error e => simp
  | ok tokens => cases read : Parse.program tokens <;> simp [read]

theorem source_image (body : List Stmt) :
    (∃ source found, Parse.source source = .ok found ∧ Stmt.eraseAll found = Stmt.eraseAll body) ↔
      Stmt.AllReadable body := by
  constructor
  · rintro ⟨source, found, read, same⟩
    obtain ⟨tokens, scanned, parsed⟩ := source_ok.mp read
    rw [Token.scan_eq] at scanned
    have readable := (Parse.program_derived parsed).readable (Token.scanAt_valid scanned)
    have erased := Stmt.allReadable_erase.mpr readable
    rw [same] at erased
    exact Stmt.allReadable_erase.mp erased
  · intro readable
    obtain ⟨ts, found, derived, same, valid⟩ := Stmt.AllReadable.spells body readable
    obtain ⟨source, tokens, scanned, faces⟩ := scan_spaced ts valid
    obtain ⟨again, parsed, alike⟩ := Parse.program_faces faces (Parse.program_read derived)
    exact ⟨source, again, source_ok.mpr ⟨tokens, scanned, parsed⟩, alike.trans same⟩

end Minilang
