import Minilang.Proofs.Decoding
import Minilang.Proofs.Lexeme

namespace Minilang

inductive FirstDiffers : List UInt8 → List UInt8 → Prop where
  | here (less : b < c) : FirstDiffers (b :: bs) (c :: cs)
  | behind (later : FirstDiffers bs cs) : FirstDiffers (b :: bs) (b :: cs)

theorem FirstDiffers.lt (differs : FirstDiffers bs cs) (after next : List UInt8) :
    bs ++ after < cs ++ next := by
  induction differs with
  | here less => exact List.cons_lt_cons_iff.mpr (.inl less)
  | behind _ ih => exact List.cons_lt_cons_iff.mpr (.inr ⟨rfl, ih⟩)

theorem FirstDiffers.ofHeads {b c : UInt8} (most : b.toNat ≤ c.toNat)
    (tied : b = c → FirstDiffers bs cs) : FirstDiffers (b :: bs) (c :: cs) := by
  rcases Nat.lt_or_eq_of_le most with less | same
  · exact .here less
  · obtain rfl := UInt8.toNat_inj.mp same
    exact .behind (tied rfl)

namespace Text

-- Encodings of different lengths part at their first bytes, and the shorter one is lower. In
-- those of one length every byte holds some digits of the code, the leading ones first.
theorem Encoded.differs (first : Encoded bs m) (second : Encoded cs n) (less : m < n) :
    FirstDiffers bs cs := by
  cases first with
  | one low =>
    cases second with
    | one => exact .here less
    | two least | three least | four least => exact .here (UInt8.lt_iff_toNat_lt.mpr (by omega))
  | two lowest highest next =>
    rw [continuation_iff] at next
    cases second with
    | one => exact absurd less (by unfold low6; omega)
    | two least greatest other =>
      rw [continuation_iff] at other
      unfold low6 at less
      refine .ofHeads (by omega) ?_
      rintro rfl
      exact .here (UInt8.lt_iff_toNat_lt.mpr (by omega))
    | three least | four least => exact .here (UInt8.lt_iff_toNat_lt.mpr (by omega))
  | three lowest highest next last =>
    rw [second_iff] at next
    rw [continuation_iff] at last
    cases second with
    | one => exact absurd less (by unfold low6; omega)
    | two => exact absurd less (by unfold low6; omega)
    | three least greatest other final =>
      rw [second_iff] at other
      rw [continuation_iff] at final
      unfold low6 at less
      refine .ofHeads (by omega) ?_
      rintro rfl
      refine .ofHeads (by omega) ?_
      rintro rfl
      exact .here (UInt8.lt_iff_toNat_lt.mpr (by omega))
    | four least => exact .here (UInt8.lt_iff_toNat_lt.mpr (by omega))
  | four lowest highest next third last =>
    rw [second_iff] at next
    rw [continuation_iff] at third last
    cases second with
    | one => exact absurd less (by unfold low6; omega)
    | two => exact absurd less (by unfold low6; omega)
    | three => exact absurd less (by unfold low6; omega)
    | four least greatest other middle final =>
      rw [second_iff] at other
      rw [continuation_iff] at middle final
      unfold low6 at less
      refine .ofHeads (by omega) ?_
      rintro rfl
      refine .ofHeads (by omega) ?_
      rintro rfl
      refine .ofHeads (by omega) ?_
      rintro rfl
      exact .here (UInt8.lt_iff_toNat_lt.mpr (by omega))

theorem encode_differs {c d : Char} (less : c < d) :
    FirstDiffers (String.utf8EncodeChar c) (String.utf8EncodeChar d) :=
  (encoded_char c).differs (encoded_char d) less

theorem flatMap_encode_lt {cs ds : List Char} (less : cs < ds) :
    cs.flatMap String.utf8EncodeChar < ds.flatMap String.utf8EncodeChar := by
  induction ds generalizing cs with
  | nil => exact absurd less (List.not_lt_nil cs)
  | cons d ds ih =>
    cases cs with
    | nil =>
      obtain ⟨b, bs, encoded⟩ := List.exists_cons_of_ne_nil (@String.utf8EncodeChar_ne_nil d)
      rw [List.flatMap_cons, encoded]
      exact List.nil_lt_cons _ _
    | cons c cs =>
      rw [List.flatMap_cons, List.flatMap_cons]
      rcases List.cons_lt_cons_iff.mp less with lower | ⟨rfl, later⟩
      · exact (encode_differs lower).lt _ _
      · exact List.append_left_lt (ih later)

theorem bytesOf_lt {a b : String} (less : a < b) : bytesOf a < bytesOf b := by
  rw [bytesOf_toList, bytesOf_toList]
  exact flatMap_encode_lt (String.lt_iff.mp less)

theorem bytesOf_le_iff (a b : String) : bytesOf a ≤ bytesOf b ↔ a ≤ b := by
  constructor
  · intro most
    exact String.not_lt.mp fun less => List.not_lt.mpr most (bytesOf_lt less)
  · intro most
    apply List.not_lt.mp
    intro less
    by_cases lower : a < b
    · exact List.lt_asymm less (bytesOf_lt lower)
    · obtain rfl := String.le_antisymm most (String.not_lt.mp lower)
      exact List.lt_irrefl _ less

end Text

end Minilang
