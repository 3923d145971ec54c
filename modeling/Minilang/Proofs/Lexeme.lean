import Minilang.Proofs.Scanning

namespace Minilang

-- The characters of lexemes. Words hold letters, underscores and minus signs, but do not
-- start with a minus sign.
def isDigitChar (c : Char) : Bool := '0' ≤ c && c ≤ '9'

def isWordChar (c : Char) : Bool :=
  ('a' ≤ c && c ≤ 'z') || ('A' ≤ c && c ≤ 'Z') || c == '_' || c == '-'

def IsNumeral (text : String) : Prop := text.toList ≠ [] ∧ ∀ c ∈ text.toList, isDigitChar c

def IsWord (text : String) : Prop :=
  text.toList ≠ [] ∧ (∀ c ∈ text.toList, isWordChar c) ∧ text.toList.head? ≠ some '-'

instance (text : String) : Decidable (IsNumeral text) :=
  decidable_of_iff (text.toList ≠ [] ∧ text.toList.all isDigitChar) (by simp [IsNumeral])

instance (text : String) : Decidable (IsWord text) :=
  decidable_of_iff (text.toList ≠ [] ∧ text.toList.all isWordChar ∧ text.toList.head? ≠ some '-')
    (by simp [IsWord])

def numeralValue (text : String) : Nat := Nat.ofDigitChars 10 text.toList 0

def singleLexemes : TokenKind → List String
  | .operator => ["*", "/", "+", "-", "=", "%"]
  | .paren => ["(", ")"]
  | .brace => ["\x7b", "\x7d"]
  | .semicolon => [";"]
  | _ => []

-- Tokens that a text can hold, wherever they stand.
inductive Token.Valid : Token → Prop where
  | number (kind : t.kind = .number) (digits : IsNumeral t.lexeme)
      (value : t.value = some (numeralValue t.lexeme : Int)) : Valid t
  | word (kind : t.kind = if isKeyword t.lexeme then .keyword else .identifier)
      (letters : IsWord t.lexeme) (value : t.value = none) : Valid t
  | single (lexeme : t.lexeme ∈ singleLexemes t.kind) (value : t.value = none) : Valid t

theorem toList_loop (bytes : ByteArray) (i : Nat) (passed : List UInt8) :
    ByteArray.toList.loop bytes i passed = passed.reverse ++ bytes.data.toList.drop i := by
  induction left : bytes.size - i generalizing i passed with
  | zero =>
    have ended : bytes.data.toList.length ≤ i := by
      rw [Array.length_toList]
      exact Nat.sub_eq_zero_iff_le.mp left
    rw [ByteArray.toList.loop, if_neg (by omega), List.drop_of_length_le ended, List.append_nil]
  | succ n ih =>
    have inside : i < bytes.size := by omega
    have here : bytes.get! i = bytes.data[i] := getElem!_pos bytes.data i inside
    have split : bytes.data.toList.drop i = bytes.data[i] :: bytes.data.toList.drop (i + 1) :=
      List.drop_eq_getElem_cons (by simpa using inside)
    rw [ByteArray.toList.loop, if_pos inside, ih (i + 1) _ (by omega), here, split]
    simp

@[simp]
theorem bytesOf_ofList (cs : List Char) :
    Text.bytesOf (String.ofList cs) = cs.flatMap String.utf8EncodeChar := by
  rw [Text.bytesOf, ByteArray.toList, toList_loop]
  simp [List.utf8Encode]

theorem bytesOf_toList (text : String) :
    Text.bytesOf text = text.toList.flatMap String.utf8EncodeChar := by
  rw [← bytesOf_ofList, String.ofList_toList]

theorem toNat_charOf (b : UInt8) : (Char.ofNat b.toNat).toNat = b.toNat := by
  have small := b.toNat_lt
  have valid : b.toNat.isValidChar := .inl (by omega)
  rw [Char.ofNat, dif_pos valid]
  rfl

theorem encode_ascii {b : UInt8} (ascii : b < 128) :
    String.utf8EncodeChar (Char.ofNat b.toNat) = [b] := by
  have small : b.toNat < 128 := ascii
  have code : (Char.ofNat b.toNat).val.toNat = b.toNat := toNat_charOf b
  simp only [String.utf8EncodeChar, code]
  rw [if_pos (by omega), UInt8.ofNat_toNat]

theorem bytesOf_lexeme {bs : List UInt8} (ascii : ∀ b ∈ bs, b < 128) :
    Text.bytesOf (lexemeOf bs) = bs := by
  rw [lexemeOf, bytesOf_ofList]
  induction bs with
  | nil => rfl
  | cons b bs ih =>
    rw [List.map_cons, List.flatMap_cons, encode_ascii (ascii b (by simp)),
      ih fun b later => ascii b (by simp [later])]
    rfl

@[simp]
theorem toList_lexeme (bs : List UInt8) :
    (lexemeOf bs).toList = bs.map fun b => Char.ofNat b.toNat := by
  simp [lexemeOf]

theorem lexeme_ascii {text : String} (ascii : ∀ c ∈ text.toList, c.toNat < 128) :
    ∃ bs, text = lexemeOf bs := by
  refine ⟨text.toList.map fun c => UInt8.ofNat c.toNat, ?_⟩
  have same : text.toList.map (fun c => Char.ofNat (UInt8.ofNat c.toNat).toNat) = text.toList := by
    refine (List.map_congr_left fun c member => ?_).trans (List.map_id _)
    have small : c.toNat < 256 := Nat.lt_trans (ascii c member) (by decide)
    rw [UInt8.toNat_ofNat_of_lt' small, Char.ofNat_toNat]
    rfl
  rw [lexemeOf, List.map_map, Function.comp_def, same, String.ofList_toList]

theorem digit_charOf (b : UInt8) : isDigitChar (Char.ofNat b.toNat) = Alphabet.isDigit b := by
  have code : (Char.ofNat b.toNat).val.toNat = b.toNat := toNat_charOf b
  simp [isDigitChar, Alphabet.isDigit, Char.le_def, UInt32.le_iff_toNat_le, UInt8.le_iff_toNat_le,
    code]

theorem charOf_inj {a b : UInt8} : Char.ofNat a.toNat = Char.ofNat b.toNat ↔ a = b := by
  constructor
  · intro same
    have codes := congrArg Char.toNat same
    rw [toNat_charOf, toNat_charOf] at codes
    exact UInt8.toNat_inj.mp codes
  · rintro rfl
    rfl

theorem word_charOf (b : UInt8) : isWordChar (Char.ofNat b.toNat) = Alphabet.isWord b := by
  have code : (Char.ofNat b.toNat).val.toNat = b.toNat := toNat_charOf b
  have underscore : Char.ofNat b.toNat = '_' ↔ b = 95 := charOf_inj (b := 95)
  have minus : Char.ofNat b.toNat = '-' ↔ b = 45 := charOf_inj (b := 45)
  rw [Bool.eq_iff_iff]
  simp [isWordChar, Alphabet.isWord, Char.le_def, UInt32.le_iff_toNat_le, UInt8.le_iff_toNat_le,
    code, underscore, minus]

theorem lexeme_class {text : String} {q : Char → Bool} {r : UInt8 → Bool}
    (ascii : ∀ c, q c → c.toNat < 128) (same : ∀ b, q (Char.ofNat b.toNat) = r b)
    (inside : ∀ c ∈ text.toList, q c) : ∃ bs, text = lexemeOf bs ∧ ∀ b ∈ bs, r b := by
  obtain ⟨bs, rfl⟩ := lexeme_ascii fun c member => ascii c (inside c member)
  refine ⟨bs, rfl, ?_⟩
  intro b member
  rw [← same]
  exact inside _ (by rw [toList_lexeme]; exact List.mem_map_of_mem member)

theorem digit_bounds {c : Char} (digit : isDigitChar c) : 48 ≤ c.toNat ∧ c.toNat ≤ 57 := by
  simp only [isDigitChar, Bool.and_eq_true, decide_eq_true_eq, Char.le_def,
    UInt32.le_iff_toNat_le] at digit
  exact digit

theorem word_bounds {c : Char} (word : isWordChar c) : 45 ≤ c.toNat ∧ c.toNat ≤ 122 := by
  simp only [isWordChar, Bool.or_eq_true, Bool.and_eq_true, decide_eq_true_eq, beq_iff_eq,
    Char.le_def, UInt32.le_iff_toNat_le] at word
  rcases word with ((lower | upper) | rfl) | rfl
  · exact ⟨Nat.le_trans (by decide) lower.1, lower.2⟩
  · exact ⟨Nat.le_trans (by decide) upper.1, Nat.le_trans upper.2 (by decide)⟩
  · decide
  · decide

theorem digit_small {c : Char} (digit : isDigitChar c) : c.toNat < 128 :=
  Nat.lt_of_le_of_lt (digit_bounds digit).2 (by decide)

theorem word_small {c : Char} (word : isWordChar c) : c.toNat < 128 :=
  Nat.lt_of_le_of_lt (word_bounds word).2 (by decide)

theorem digitsValue_lexeme (bs : List UInt8) : numeralValue (lexemeOf bs) = digitsValue bs := by
  simp [numeralValue, digitsValue, Nat.ofDigitChars_eq_foldl, List.foldl_map, toNat_charOf, Nat.mul_comm]

namespace Token

open Alphabet

-- The bytes of a valid token, by the branch of the scanner that takes them.
inductive Spelled : List UInt8 → Token → Prop where
  | number (inside : ∀ b ∈ bs, isDigit b) (filled : bs ≠ []) : Spelled bs (.number p bs)
  | word (inside : ∀ b ∈ bs, isWord b) (filled : bs ≠ []) (start : bs.head? ≠ some 45) :
      Spelled bs (.word p bs)
  | single {sort : TokenKind} (known : (b, sort) ∈ singles) : Spelled [b] (.single p sort b)

theorem Spelled.ascii (spelled : Spelled bs t) : ∀ b ∈ bs, b < 128 := by
  cases spelled with
  | number inside =>
    intro b member
    have digit := inside b member
    simp only [isDigit] at digit
    grind
  | word inside =>
    intro b member
    have letter := inside b member
    simp only [isWord] at letter
    grind
  | single known =>
    have each : ∀ s ∈ singles, s.1 < 128 := by decide
    simpa using each _ known

theorem Spelled.bytes {t : Token} (spelled : Spelled bs t) : Text.bytesOf t.lexeme = bs := by
  have lexeme : t.lexeme = lexemeOf bs := by cases spelled <;> rfl
  rw [lexeme, bytesOf_lexeme spelled.ascii]

theorem single_spelled {sort : TokenKind} {text : String} (known : text ∈ singleLexemes sort) :
    ∃ b, (b, sort) ∈ singles ∧ text = lexemeOf [b] := by
  cases sort with
  | operator =>
    simp only [singleLexemes, List.mem_cons, List.not_mem_nil, or_false] at known
    obtain rfl | rfl | rfl | rfl | rfl | rfl := known
    · exact ⟨42, by decide, rfl⟩
    · exact ⟨47, by decide, rfl⟩
    · exact ⟨43, by decide, rfl⟩
    · exact ⟨45, by decide, rfl⟩
    · exact ⟨61, by decide, rfl⟩
    · exact ⟨37, by decide, rfl⟩
  | paren =>
    simp only [singleLexemes, List.mem_cons, List.not_mem_nil, or_false] at known
    obtain rfl | rfl := known
    · exact ⟨40, by decide, rfl⟩
    · exact ⟨41, by decide, rfl⟩
  | brace =>
    simp only [singleLexemes, List.mem_cons, List.not_mem_nil, or_false] at known
    obtain rfl | rfl := known
    · exact ⟨123, by decide, rfl⟩
    · exact ⟨125, by decide, rfl⟩
  | semicolon =>
    simp only [singleLexemes, List.mem_cons, List.not_mem_nil, or_false] at known
    subst known
    exact ⟨59, by decide, rfl⟩
  | number | identifier | keyword | other => simp [singleLexemes] at known

theorem head_lexeme (bs : List UInt8) :
    (lexemeOf bs).toList.head? = some '-' ↔ bs.head? = some 45 := by
  rw [toList_lexeme]
  cases bs with
  | nil => simp
  | cons b bs => simpa using charOf_inj (b := 45)

theorem Valid.spelled (valid : Valid t) : ∃ bs, Spelled bs t := by
  cases valid with
  | number kind digits value =>
    obtain ⟨bs, lexeme, inside⟩ := lexeme_class (fun _ => digit_small) digit_charOf digits.2
    have filled : bs ≠ [] := by
      rintro rfl
      exact digits.1 (by rw [lexeme]; rfl)
    refine ⟨bs, ?_⟩
    have same : t = .number t.position bs := by
      rw [lexeme, digitsValue_lexeme] at value
      cases t
      simp_all [Token.number]
    rw [same]
    exact .number inside filled
  | word kind letters value =>
    obtain ⟨bs, lexeme, inside⟩ := lexeme_class (fun _ => word_small) word_charOf letters.2.1
    have filled : bs ≠ [] := by
      rintro rfl
      exact letters.1 (by rw [lexeme]; rfl)
    have start : bs.head? ≠ some 45 := by
      intro minus
      exact letters.2.2 (by rw [lexeme]; exact (head_lexeme bs).mpr minus)
    refine ⟨bs, ?_⟩
    have same : t = .word t.position bs := by
      rw [lexeme] at kind
      cases t
      simp_all [Token.word]
    rw [same]
    exact .word inside filled start
  | single known value =>
    obtain ⟨b, listed, lexeme⟩ := single_spelled known
    refine ⟨[b], ?_⟩
    have same : t = .single t.position t.kind b := by
      cases t
      simp_all [Token.single]
    rw [same]
    exact .single listed

theorem lexeme_filled (filled : bs ≠ []) : (lexemeOf bs).toList ≠ [] := by
  rw [toList_lexeme]
  simpa using filled

theorem lexeme_inside {q : Char → Bool} {r : UInt8 → Bool} (same : ∀ b, q (Char.ofNat b.toNat) = r b)
    (inside : ∀ b ∈ bs, r b) : ∀ c ∈ (lexemeOf bs).toList, q c := by
  rw [toList_lexeme]
  intro c member
  obtain ⟨b, listed, rfl⟩ := List.mem_map.mp member
  rw [same]
  exact inside b listed

theorem Spelled.valid (spelled : Spelled bs t) : Valid t := by
  cases spelled with
  | number inside filled =>
    refine .number rfl ⟨lexeme_filled filled, lexeme_inside digit_charOf inside⟩ ?_
    simp [Token.number, digitsValue_lexeme]
  | word inside filled start =>
    refine .word rfl ⟨lexeme_filled filled, lexeme_inside word_charOf inside, ?_⟩ rfl
    exact fun minus => start ((head_lexeme bs).mp minus)
  | single known =>
    have each : ∀ s ∈ singles, lexemeOf [s.1] ∈ singleLexemes s.2 := by decide
    have listed := each _ known
    exact .single listed rfl

theorem map_ok {f : List Token → List Token} {result : Except LexError (List Token)}
    (read : result.map f = .ok tokens) : ∃ later, result = .ok later ∧ tokens = f later := by
  cases result with
  | error e => cases read
  | ok later =>
    cases read
    exact ⟨later, rfl, rfl⟩

theorem scanAt_valid (read : scanAt p bs = .ok tokens) : ∀ t ∈ tokens, Valid t := by
  induction pieces bs generalizing p tokens with
  | nil =>
    cases read
    simp
  | number inside filled breaks _ ih =>
    rw [scanAt_number inside filled breaks] at read
    obtain ⟨later, behind, rfl⟩ := map_ok read
    exact List.forall_mem_cons.mpr ⟨(Spelled.number inside filled).valid, ih behind⟩
  | word inside filled start breaks _ ih =>
    rw [scanAt_word inside filled start breaks] at read
    obtain ⟨later, behind, rfl⟩ := map_ok read
    exact List.forall_mem_cons.mpr ⟨(Spelled.word inside filled start).valid, ih behind⟩
  | single known _ ih =>
    rw [scanAt_single known] at read
    obtain ⟨later, behind, rfl⟩ := map_ok read
    exact List.forall_mem_cons.mpr ⟨(Spelled.single known).valid, ih behind⟩
  | newline _ ih =>
    rw [scanAt_newline] at read
    exact ih read
  | space blank _ ih =>
    rw [scanAt_space blank] at read
    exact ih read
  | foreign outside =>
    rw [scanAt_foreign outside] at read
    cases read

theorem Valid.number_value {t : Token} (valid : Valid t) (sort : t.kind = .number) :
    t.value = some (numeralValue t.lexeme : Int) := by
  cases valid with
  | number _ _ value => exact value
  | word found =>
    rw [sort] at found
    split at found <;> cases found
  | single lexeme =>
    rw [sort] at lexeme
    cases lexeme

theorem Valid.identifier {t : Token} (valid : Valid t) (sort : t.kind = .identifier) :
    IsWord t.lexeme ∧ isKeyword t.lexeme = false := by
  cases valid with
  | number found => cases found.symm.trans sort
  | word found letters =>
    rw [sort] at found
    refine ⟨letters, ?_⟩
    cases keyword : isKeyword t.lexeme with
    | false => rfl
    | true => simp [keyword] at found
  | single lexeme =>
    rw [sort] at lexeme
    cases lexeme

end Token

end Minilang
