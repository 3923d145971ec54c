import Minilang.Proofs.CursorLoop
import Minilang.Proofs.Decoding

namespace Minilang.Token

open Alphabet

def languageText : String :=
  "\t\n\x0b\x0c\r %()*+-/0123456789;=ABCDEFGHIJKLMNOPQRSTUVWXYZ_abcdefghijklmnopqrstuvwxyz\x7b\x7d"

def InLanguage (b : UInt8) : Prop := ∃ c ∈ languageText.toList, c.toNat = b.toNat

theorem contains_iff (b : UInt8) : contains b ↔ InLanguage b := by
  have listed : (List.range 256).filter (fun n => contains (UInt8.ofNat n)) =
      languageText.toList.map Char.toNat := by
    decide +kernel
  have code : b.toNat ∈ List.range 256 := List.mem_range.mpr b.toNat_lt
  rw [InLanguage, ← List.mem_map, ← listed, List.mem_filter, UInt8.ofNat_toNat]
  exact ⟨fun known => ⟨code, known⟩, fun found => found.2⟩

theorem foreign_iff (b : UInt8) : ¬InLanguage b ↔ contains b = false := by
  rw [← contains_iff, Bool.not_eq_true]

theorem Reads.known (reads : Reads passed rest result) (read : result = .ok tokens) :
    ∀ b ∈ rest, contains b := by
  induction reads generalizing tokens with
  | done => simp
  | token spelled _ _ ih =>
    obtain ⟨others, behind, _⟩ := map_ok read
    exact List.forall_mem_append.mpr ⟨spelled.contains, ih behind⟩
  | blank skipped _ ih => exact List.forall_mem_cons.mpr ⟨blank_contains skipped, ih read⟩
  | foreign => cases read

theorem scan_known (scanned : scan source = .ok tokens) : ∀ b ∈ source, contains b :=
  (scanAt_reads [] source).known scanned

theorem scan_error (failed : scan source = .error e) :
    ∃ b after, source.dropWhile contains = b :: after ∧ contains b = false ∧
      e = ⟨.behind (source.takeWhile contains), (Text.decodeFirst (b :: after)).1⟩ := by
  obtain ⟨offset, ⟨inside, place⟩, ⟨b, found, outside⟩, first, char⟩ := scan_foreign failed
  have split : source.drop offset = b :: source.drop (offset + 1) := by
    rw [List.getElem?_eq_getElem inside] at found
    rw [List.drop_eq_getElem_cons inside, Option.some.inj found]
  have breaks : Breaks contains (source.drop offset) := by
    intro c head
    rw [split] at head
    cases head
    exact outside
  have parts := takeWhile_run first breaks
  rw [List.take_append_drop] at parts
  refine ⟨b, source.drop (offset + 1), parts.2.trans split, outside, ?_⟩
  rw [parts.1, ← place, ← split, ← char]

theorem scan_foreign_byte {before after : List UInt8} (known : ∀ c ∈ before, contains c)
    (foreign : contains b = false) : scan (before ++ b :: after) =
      .error ⟨.behind before, (Text.decodeFirst (b :: after)).1⟩ := by
  have breaks : Breaks contains (b :: after) := by
    intro c head
    cases head
    exact foreign
  obtain ⟨taken, dropped⟩ := takeWhile_run known breaks
  cases scanned : scan (before ++ b :: after) with
  | ok tokens =>
    have inside := scan_known scanned b (by simp)
    rw [foreign] at inside
    cases inside
  | error e =>
    obtain ⟨c, rest, same, _, shown⟩ := scan_error scanned
    rw [dropped] at same
    rw [shown, taken, same]

-- Scanning always ends with an answer that the loop over the bytes reaches, and the answer is an
-- error exactly if some byte is not of the language. The error reports the first such byte.
theorem foreign_bytes_exact (source : List UInt8) :
    (∀ more, (Cursor.start source).loop (source.length + more) = .ok (scan source)) ∧
    ((∃ e, scan source = .error e) ↔ ∃ b ∈ source, ¬InLanguage b) ∧
    ∀ e, scan source = .error e ↔ ∃ before b after, source = before ++ b :: after ∧
      (∀ c ∈ before, InLanguage c) ∧ ¬InLanguage b ∧ e.position.row = before.count newline ∧
      e.position.column = (before.reverse.takeWhile (· != newline)).length ∧
      Text.HeadCode (b :: after) e.char := by
  refine ⟨fun more => Cursor.loop_scan (Nat.le_add_right _ _), ?_, fun e => ?_⟩
  · constructor
    · intro failed
      obtain ⟨e, failed⟩ := failed
      obtain ⟨b, after, dropped, foreign, _⟩ := scan_error failed
      have member : b ∈ source.dropWhile contains := by simp [dropped]
      exact ⟨b, (List.dropWhile_sublist _).subset member, (foreign_iff b).mpr foreign⟩
    · intro held
      obtain ⟨b, member, foreign⟩ := held
      cases scanned : scan source with
      | ok tokens => exact absurd ((contains_iff b).mp (scan_known scanned b member)) foreign
      | error e => exact ⟨e, rfl⟩
  · constructor
    · intro failed
      obtain ⟨b, after, dropped, foreign, rfl⟩ := scan_error failed
      refine ⟨source.takeWhile contains, b, after, ?_, ?_, (foreign_iff b).mpr foreign, rfl, rfl, ?_⟩
      · rw [← dropped, List.takeWhile_append_dropWhile]
      · intro c member
        exact (contains_iff c).mp (takeWhile_inside contains source c member)
      · exact (Text.headCode_iff _ _).mpr rfl
    · intro reported
      obtain ⟨before, b, after, rfl, known, foreign, row, column, char⟩ := reported
      have inside : ∀ c ∈ before, contains c := fun c member => (contains_iff c).mpr (known c member)
      rw [scan_foreign_byte inside ((foreign_iff b).mp foreign), ← (Text.headCode_iff _ _).mp char]
      obtain ⟨⟨_, _⟩, _⟩ := e
      cases row
      cases column
      rfl

end Minilang.Token
