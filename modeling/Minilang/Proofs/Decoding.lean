import Minilang.Text.Utf8

namespace Minilang.Text

inductive Encoded : List UInt8 → Nat → Prop where
  | one {lead : UInt8} (low : lead.toNat < 0x80) : Encoded [lead] lead.toNat
  | two {lead b : UInt8} (least : 0xc2 ≤ lead.toNat) (greatest : lead.toNat ≤ 0xdf)
      (second : isContinuation b) : Encoded [lead, b] (lead.toNat % 32 * 64 + low6 b)
  | three {lead b c : UInt8} (least : 0xe0 ≤ lead.toNat) (greatest : lead.toNat ≤ 0xef)
      (second : (secondByteBounds lead).1 ≤ b ∧ b ≤ (secondByteBounds lead).2)
      (third : isContinuation c) :
      Encoded [lead, b, c] (lead.toNat % 16 * 4096 + low6 b * 64 + low6 c)
  | four {lead b c d : UInt8} (least : 0xf0 ≤ lead.toNat) (greatest : lead.toNat ≤ 0xf4)
      (second : (secondByteBounds lead).1 ≤ b ∧ b ≤ (secondByteBounds lead).2)
      (third : isContinuation c) (fourth : isContinuation d) :
      Encoded [lead, b, c, d]
        (lead.toNat % 8 * 262144 + low6 b * 4096 + low6 c * 64 + low6 d)

variable {lead b : UInt8} {bytes bs rest : List UInt8} {code : Nat}

theorem announcedWidth_eq (lead : UInt8) : announcedWidth lead =
    if lead.toNat < 0x80 then some 1
    else if 0xc2 ≤ lead.toNat ∧ lead.toNat ≤ 0xdf then some 2
    else if 0xe0 ≤ lead.toNat ∧ lead.toNat ≤ 0xef then some 3
    else if 0xf0 ≤ lead.toNat ∧ lead.toNat ≤ 0xf4 then some 4
    else none := by
  simp [announcedWidth, UInt8.lt_iff_toNat_lt, UInt8.le_iff_toNat_le]

theorem continuation_iff : isContinuation b ↔ 0x80 ≤ b.toNat ∧ b.toNat ≤ 0xbf := by
  simp [isContinuation, UInt8.le_iff_toNat_le]

-- The bounds leave out the overlong forms, the surrogates and what lies above the code space.
theorem second_iff (lead b : UInt8) :
    (secondByteBounds lead).1 ≤ b ∧ b ≤ (secondByteBounds lead).2 ↔
      (0x80 ≤ b.toNat ∧ b.toNat ≤ 0xbf) ∧ (lead.toNat = 0xe0 → 0xa0 ≤ b.toNat) ∧
        (lead.toNat = 0xed → b.toNat ≤ 0x9f) ∧ (lead.toNat = 0xf0 → 0x90 ≤ b.toNat) ∧
        (lead.toNat = 0xf4 → b.toNat ≤ 0x8f) := by
  unfold secondByteBounds
  simp only [beq_iff_eq, ← UInt8.toNat_inj]
  repeat' split
  all_goals
    simp [UInt8.le_iff_toNat_le] at *
    omega

theorem Encoded.high (encoded : Encoded (b :: bs) code) :
    (b.toNat = code ∨ 0x80 ≤ b.toNat) ∧ ∀ c ∈ bs, 0x80 ≤ c.toNat := by
  cases encoded with
  | one => exact ⟨.inl rfl, by simp⟩
  | two least _ second =>
    rw [continuation_iff] at second
    exact ⟨.inr (by omega), by simpa using second.1⟩
  | three least _ second third =>
    rw [second_iff] at second
    rw [continuation_iff] at third
    exact ⟨.inr (by omega), by simpa using ⟨second.1.1, third.1⟩⟩
  | four least _ second third fourth =>
    rw [second_iff] at second
    rw [continuation_iff] at third fourth
    exact ⟨.inr (by omega), by simpa using ⟨second.1.1, third.1, fourth.1⟩⟩

theorem decodeFirst_encoded (encoded : Encoded bs code) (rest : List UInt8) :
    decodeFirst (bs ++ rest) = (code, bs.length) := by
  cases encoded with
  | one low => simp [decodeFirst, announcedWidth_eq, low]
  | @two lead b least greatest second =>
    have width : announcedWidth lead = some 2 := by
      rw [announcedWidth_eq, if_neg (by omega), if_pos ⟨least, greatest⟩]
    simp [decodeFirst, width, second]
  | @three lead b c least greatest second third =>
    have width : announcedWidth lead = some 3 := by
      rw [announcedWidth_eq, if_neg (by omega), if_neg (by omega), if_pos ⟨least, greatest⟩]
    simp [decodeFirst, width, second, third]
  | @four lead b c d least greatest second third fourth =>
    have width : announcedWidth lead = some 4 := by
      rw [announcedWidth_eq, if_neg (by omega), if_neg (by omega), if_neg (by omega),
        if_pos ⟨least, greatest⟩]
    simp [decodeFirst, width, second, third, fourth]

theorem decodeFirst_cases (bytes : List UInt8) :
    (∃ bs code, Encoded bs code ∧ bs <+: bytes) ∨
      (decodeFirst bytes).1 = replacement ∧ (decodeFirst bytes).2 ≤ 1 := by
  cases bytes with
  | nil => exact .inr ⟨rfl, Nat.zero_le 1⟩
  | cons lead rest =>
    have announced := announcedWidth_eq lead
    unfold decodeFirst
    dsimp only
    split
    · rename_i width
      rw [width] at announced
      refine .inl ⟨[lead], _, .one ?_, by simp⟩
      grind
    · rename_i b rest width
      rw [width] at announced
      split
      · rename_i second
        refine .inl ⟨[lead, b], _, .two ?_ ?_ second, by simp⟩ <;> grind
      · exact .inr ⟨rfl, Nat.le_refl 1⟩
    · rename_i b c rest width
      rw [width] at announced
      split
      · rename_i inside
        simp only [Bool.and_eq_true, decide_eq_true_eq] at inside
        refine .inl ⟨[lead, b, c], _, .three ?_ ?_ inside.1 inside.2, by simp⟩ <;> grind
      · exact .inr ⟨rfl, Nat.le_refl 1⟩
    · rename_i b c d rest width
      rw [width] at announced
      split
      · rename_i inside
        simp only [Bool.and_eq_true, decide_eq_true_eq] at inside
        refine .inl ⟨[lead, b, c, d], _, .four ?_ ?_ inside.1.1 inside.1.2 inside.2, by simp⟩ <;> grind
      · exact .inr ⟨rfl, Nat.le_refl 1⟩
    · exact .inr ⟨rfl, Nat.le_refl 1⟩

theorem encoded_char (c : Char) : Encoded (String.utf8EncodeChar c) c.toNat := by
  have valid : c.val.toNat < 0xd800 ∨ 0xdfff < c.val.toNat ∧ c.val.toNat < 0x110000 := c.valid
  have code : c.toNat = c.val.toNat := rfl
  have tail (n : Nat) : (UInt8.ofNat (n % 64 + 0x80)).toNat = n % 64 + 0x80 :=
    UInt8.toNat_ofNat_of_lt' (show _ < 256 by omega)
  rw [code, String.utf8EncodeChar]
  generalize c.val.toNat = v at valid
  have last := tail v
  have middle := tail (v / 64)
  have upper := tail (v / 4096)
  split
  · have first : (UInt8.ofNat v).toNat = v := UInt8.toNat_ofNat_of_lt' (show v < 256 by omega)
    have encoded := @Encoded.one (UInt8.ofNat v) (by omega)
    rwa [first] at encoded
  · split
    · have first : (UInt8.ofNat (v / 64 % 32 + 0xc0)).toNat = v / 64 % 32 + 0xc0 :=
        UInt8.toNat_ofNat_of_lt' (show _ < 256 by omega)
      have encoded := @Encoded.two (UInt8.ofNat (v / 64 % 32 + 0xc0)) (UInt8.ofNat (v % 64 + 0x80))
        (by omega) (by omega) (continuation_iff.mpr (by omega))
      rw [low6, first, last] at encoded
      have same : (v / 64 % 32 + 0xc0) % 32 * 64 + (v % 64 + 0x80) % 64 = v := by omega
      rwa [same] at encoded
    · split
      · have first : (UInt8.ofNat (v / 4096 % 16 + 0xe0)).toNat = v / 4096 % 16 + 0xe0 :=
          UInt8.toNat_ofNat_of_lt' (show _ < 256 by omega)
        have encoded := @Encoded.three (UInt8.ofNat (v / 4096 % 16 + 0xe0))
          (UInt8.ofNat (v / 64 % 64 + 0x80)) (UInt8.ofNat (v % 64 + 0x80)) (by omega) (by omega)
          ((second_iff _ _).mpr (by omega)) (continuation_iff.mpr (by omega))
        rw [low6, low6, first, middle, last] at encoded
        have same : (v / 4096 % 16 + 0xe0) % 16 * 4096 + (v / 64 % 64 + 0x80) % 64 * 64 +
            (v % 64 + 0x80) % 64 = v := by omega
        rwa [same] at encoded
      · have first : (UInt8.ofNat (v / 262144 % 8 + 0xf0)).toNat = v / 262144 % 8 + 0xf0 :=
          UInt8.toNat_ofNat_of_lt' (show _ < 256 by omega)
        have encoded := @Encoded.four (UInt8.ofNat (v / 262144 % 8 + 0xf0))
          (UInt8.ofNat (v / 4096 % 64 + 0x80)) (UInt8.ofNat (v / 64 % 64 + 0x80))
          (UInt8.ofNat (v % 64 + 0x80)) (by omega) (by omega) ((second_iff _ _).mpr (by omega))
          (continuation_iff.mpr (by omega)) (continuation_iff.mpr (by omega))
        rw [low6, low6, low6, first, upper, middle, last] at encoded
        have same : (v / 262144 % 8 + 0xf0) % 8 * 262144 + (v / 4096 % 64 + 0x80) % 64 * 4096 +
            (v / 64 % 64 + 0x80) % 64 * 64 + (v % 64 + 0x80) % 64 = v := by omega
        rwa [same] at encoded

theorem Encoded.valid (encoded : Encoded bs code) : code.isValidChar := by
  unfold Nat.isValidChar
  cases encoded with
  | one low => omega
  | two least greatest second =>
    rw [continuation_iff] at second
    unfold low6
    omega
  | three least greatest second third =>
    rw [second_iff] at second
    rw [continuation_iff] at third
    unfold low6
    omega
  | four least greatest second third fourth =>
    rw [second_iff] at second
    rw [continuation_iff] at third fourth
    unfold low6
    omega

theorem byte_eq {n : Nat} (same : b.toNat = n) : b = UInt8.ofNat n := by
  rw [← same, UInt8.ofNat_toNat]

theorem Encoded.char (encoded : Encoded bs code) :
    ∃ c : Char, bs = String.utf8EncodeChar c ∧ code = c.toNat := by
  refine ⟨Char.ofNatAux code encoded.valid, ?_, rfl⟩
  have value : (Char.ofNatAux code encoded.valid).val.toNat = code := rfl
  rw [String.utf8EncodeChar, value]
  cases encoded with
  | one low => rw [if_pos (by omega), UInt8.ofNat_toNat]
  | @two lead b least greatest second =>
    rw [continuation_iff] at second
    unfold low6
    rw [if_neg (by omega), if_pos (by omega)]
    congr
    · exact byte_eq (by omega)
    · exact byte_eq (by omega)
  | @three lead b c least greatest second third =>
    rw [second_iff] at second
    rw [continuation_iff] at third
    unfold low6
    rw [if_neg (by omega), if_neg (by omega), if_pos (by omega)]
    congr
    · exact byte_eq (by omega)
    · exact byte_eq (by omega)
    · exact byte_eq (by omega)
  | @four lead b c d least greatest second third fourth =>
    rw [second_iff] at second
    rw [continuation_iff] at third fourth
    unfold low6
    rw [if_neg (by omega), if_neg (by omega), if_neg (by omega)]
    congr
    · exact byte_eq (by omega)
    · exact byte_eq (by omega)
    · exact byte_eq (by omega)
    · exact byte_eq (by omega)

-- The code point that some bytes start with: that of the character whose encoding stands
-- there, and the replacement code point where no character's does.
def HeadCode (bytes : List UInt8) (code : Int) : Prop :=
  (∃ c : Char, String.utf8EncodeChar c <+: bytes ∧ code = c.toNat) ∨
    (∀ c : Char, ¬String.utf8EncodeChar c <+: bytes) ∧ code = 0xfffd

theorem decodeFirst_char {c : Char} (stands : String.utf8EncodeChar c <+: bytes) :
    (decodeFirst bytes).1 = c.toNat := by
  obtain ⟨rest, rfl⟩ := stands
  rw [decodeFirst_encoded (encoded_char c)]

theorem decodeFirst_replaced (none : ∀ c : Char, ¬String.utf8EncodeChar c <+: bytes) :
    (decodeFirst bytes).1 = 0xfffd := by
  rcases decodeFirst_cases bytes with ⟨bs, code, encoded, stands⟩ | ⟨replaced, _⟩
  · obtain ⟨c, rfl, _⟩ := encoded.char
    exact absurd stands (none c)
  · exact replaced

theorem headCode_iff (bytes : List UInt8) (code : Int) :
    HeadCode bytes code ↔ code = (decodeFirst bytes).1 := by
  by_cases shown : ∃ c : Char, String.utf8EncodeChar c <+: bytes
  · obtain ⟨c, stands⟩ := shown
    rw [decodeFirst_char stands]
    constructor
    · intro starts
      rcases starts with ⟨d, other, rfl⟩ | ⟨none, _⟩
      · rw [← decodeFirst_char stands, decodeFirst_char other]
      · exact absurd stands (none c)
    · intro same
      exact .inl ⟨c, stands, same⟩
  · have none : ∀ c : Char, ¬String.utf8EncodeChar c <+: bytes := fun c stands => shown ⟨c, stands⟩
    rw [decodeFirst_replaced none]
    constructor
    · intro starts
      rcases starts with ⟨c, stands, _⟩ | ⟨_, same⟩
      · exact absurd stands (none c)
      · exact same
    · intro same
      exact .inr ⟨none, same⟩

end Minilang.Text
