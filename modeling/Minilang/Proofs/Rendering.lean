import Mathlib.Data.List.Chain
import Minilang.Proofs.Lexeme
import Minilang.Proofs.Token

namespace Minilang.Token

open Alphabet

variable {t u : Token} {bs gap rest : List UInt8} {p : Position}

def isWordKind (kind : TokenKind) : Bool := kind == .identifier || kind == .keyword

def IsGap (gap : List UInt8) : Prop := ∀ b ∈ gap, b ∈ [32, 9, 13, 11, 12, 10]

def written (items : List (Token × List UInt8)) : List UInt8 :=
  items.flatMap fun item => Text.bytesOf item.1.lexeme ++ item.2

-- Two tokens that cannot stand side by side: their texts would be one run.
def Merges (t u : Token) : Prop :=
  (t.kind = .number ∧ u.kind = .number) ∨
    (isWordKind t.kind ∧ (isWordKind u.kind ∨ u.is .operator "-"))

def Separated (items : List (Token × List UInt8)) : Prop :=
  items.IsChain fun one two => one.2 = [] → ¬Merges one.1 two.1

theorem Separated.of_gaps {items : List (Token × List UInt8)}
    (filled : ∀ item ∈ items, item.2 ≠ []) : Separated items := by
  induction items with
  | nil => exact .nil
  | cons item items ih =>
    refine List.isChain_cons.mpr ⟨?_, ih fun other member => filled other (by simp [member])⟩
    intro next _ empty
    exact absurd empty (filled item (by simp))

def extends? (t : Token) (b : UInt8) : Bool :=
  if t.kind == .number then isDigit b else if isWordKind t.kind then isWord b else false

theorem word_kind (p : Position) (letters : List UInt8) : isWordKind (word p letters).kind := by
  unfold word
  dsimp only
  split <;> rfl

theorem word_sort {letters : List UInt8} {sort : TokenKind} (found : (word p letters).kind = sort) :
    isWordKind sort := by
  rw [← found]
  exact word_kind p letters

theorem extends_number (p : Position) (digits : List UInt8) :
    (number p digits).extends? = isDigit := rfl

theorem extends_word (p : Position) (letters : List UInt8) : (word p letters).extends? = isWord := by
  funext b
  unfold extends? word
  dsimp only
  split <;> rfl

theorem scanAt_token (spelled : Spelled bs t) (breaks : Breaks t.extends? rest) (p : Position) :
    scanAt p (bs ++ rest) =
      (scanAt (p.right bs.length) rest).map ({ t with position := p } :: ·) := by
  cases spelled with
  | number inside filled =>
    rw [extends_number] at breaks
    exact scanAt_number inside filled breaks
  | word inside filled start =>
    rw [extends_word] at breaks
    exact scanAt_word inside filled start breaks
  | single known => exact scanAt_single known

theorem scanAt_gap (blank : IsGap gap) (p : Position) (rest : List UInt8) :
    ∃ q, scanAt p (gap ++ rest) = scanAt q rest := by
  induction gap generalizing p with
  | nil => exact ⟨p, rfl⟩
  | cons b gap ih =>
    have first := blank b (by simp)
    have later : IsGap gap := fun c member => blank c (by simp [member])
    by_cases line : b = newline
    · subst line
      rw [List.cons_append, scanAt_newline]
      exact ih later p.nextRow
    · have space : isSpace b := by
        simp only [List.mem_cons, List.not_mem_nil, or_false] at first
        obtain rfl | rfl | rfl | rfl | rfl | rfl := first <;> first | rfl | exact absurd rfl line
      rw [List.cons_append, scanAt_space space]
      exact ih later (p.right 1)

theorem digit_apart {b : UInt8} (digit : isDigit b) : isWord b = false := by
  simp only [isDigit, isWord] at *
  grind

-- What a token starts with. Only a number starts with a digit, and only a word or the minus
-- sign with a byte of words.
theorem Spelled.first (spelled : Spelled bs t) : ∃ b others, bs = b :: others ∧
    (isDigit b → t.kind = .number) ∧ (isWord b → isWordKind t.kind ∨ t.is .operator "-") := by
  cases spelled with
  | number inside filled =>
    obtain ⟨b, others, rfl⟩ := List.exists_cons_of_ne_nil filled
    refine ⟨b, others, rfl, fun _ => rfl, ?_⟩
    simp [digit_apart (inside b (by simp))]
  | word inside filled start =>
    obtain ⟨b, others, rfl⟩ := List.exists_cons_of_ne_nil filled
    have digit := (word_start (inside b (by simp)) (by simpa using start)).1
    exact ⟨b, others, rfl, by simp [digit], fun _ => .inl (word_kind _ _)⟩
  | single known =>
    have digits : ∀ s ∈ singles, isDigit s.1 = false := by decide
    have words : ∀ s ∈ singles, isWord s.1 → s.2 = .operator ∧ lexemeOf [s.1] = "-" := by decide
    refine ⟨_, [], rfl, by simp [digits _ known], fun word => .inr ?_⟩
    obtain ⟨kind, lexeme⟩ := words _ known word
    simp_all [Token.is, Token.single]

theorem gap_breaks (blank : IsGap gap) (filled : gap ≠ []) (t : Token) :
    Breaks t.extends? (gap ++ rest) := by
  obtain ⟨b, others, rfl⟩ := List.exists_cons_of_ne_nil filled
  have apart : ∀ b ∈ [32, 9, 13, 11, 12, 10], isDigit b = false ∧ isWord b = false := by
    simp [isDigit, isWord]
  intro c first
  cases first
  obtain ⟨digit, word⟩ := apart b (blank b (by simp))
  simp [extends?, digit, word]

theorem token_breaks (spelled : Spelled bs u) (apart : ¬Merges t u) :
    Breaks t.extends? (bs ++ rest) := by
  obtain ⟨b, others, rfl, digit, word⟩ := spelled.first
  intro c first
  cases first
  unfold extends?
  split
  · rename_i number
    cases known : isDigit b with
    | false => rfl
    | true => exact absurd (.inl ⟨by simpa using number, digit known⟩) apart
  · split
    · rename_i letters
      cases known : isWord b with
      | false => rfl
      | true => exact absurd (.inr ⟨letters, word known⟩) apart
    · rfl

theorem single_kinds {b : UInt8} {sort : TokenKind} (known : (b, sort) ∈ singles) :
    sort ≠ .number ∧ isWordKind sort = false ∧ (lexemeOf [b] = "-" → b = 45) := by
  have each : ∀ s ∈ singles, s.2 ≠ .number ∧ isWordKind s.2 = false ∧
      (lexemeOf [s.1] = "-" → s.1 = 45) := by decide
  exact each _ known

theorem Spelled.of_number (spelled : Spelled bs t) (sort : t.kind = .number) :
    (∀ b ∈ bs, isDigit b) ∧ bs ≠ [] := by
  cases spelled with
  | number inside filled => exact ⟨inside, filled⟩
  | word => exact absurd (word_sort sort) (by decide)
  | single known => exact absurd sort (single_kinds known).1

theorem Spelled.of_word (spelled : Spelled bs t) (letters : isWordKind t.kind) :
    (∀ b ∈ bs, isWord b) ∧ bs ≠ [] ∧ bs.head? ≠ some 45 := by
  cases spelled with
  | number => cases letters
  | word inside filled start => exact ⟨inside, filled, start⟩
  | single known => exact absurd letters (by simp [Token.single, (single_kinds known).2.1])

theorem Spelled.of_minus (spelled : Spelled bs t) (minus : t.is .operator "-") : bs = [45] := by
  have sort := (Token.is_iff.mp minus).1
  cases spelled with
  | number => cases sort
  | word => exact absurd (word_sort sort) (by decide)
  | single known => rw [(single_kinds known).2.2 (Token.is_iff.mp minus).2]

theorem merge (first : Spelled bs t) (second : Spelled cs u) (merges : Merges t u) :
    ∃ v, Spelled (bs ++ cs) v := by
  obtain ⟨left, right⟩ | ⟨left, right⟩ := merges
  · obtain ⟨inside, filled⟩ := first.of_number left
    obtain ⟨others, _⟩ := second.of_number right
    refine ⟨number .origin _, .number ?_ (by simp [filled])⟩
    simpa [or_imp, forall_and] using ⟨inside, others⟩
  · obtain ⟨inside, filled, start⟩ := first.of_word left
    have others : ∀ b ∈ cs, isWord b := by
      obtain letters | minus := right
      · exact (second.of_word letters).1
      · rw [second.of_minus minus]
        exact List.forall_mem_singleton.mpr rfl
    refine ⟨word .origin _, .word ?_ (by simp [filled]) ?_⟩
    · simpa [or_imp, forall_and] using ⟨inside, others⟩
    · rwa [List.head?_append_of_ne_nil _ filled]

theorem Valid.spelled_bytes (valid : Valid t) : Spelled (Text.bytesOf t.lexeme) t := by
  obtain ⟨bs, spelled⟩ := valid.spelled
  rwa [spelled.bytes]

def AllValid (items : List (Token × List UInt8)) : Prop :=
  ∀ item ∈ items, item.1.Valid ∧ IsGap item.2

theorem AllValid.tail (valid : AllValid (item :: items)) : AllValid items :=
  fun other member => valid other (List.mem_cons_of_mem _ member)

theorem scanAt_apart (valid : AllValid ((t, gap) :: items))
    (apart : ∀ next ∈ items.head?, gap = [] → ¬Merges t next.1) (p : Position) :
    ∃ q, scanAt p (written ((t, gap) :: items)) =
      (scanAt q (written items)).map ({ t with position := p } :: ·) := by
  obtain ⟨good, blank⟩ := valid (t, gap) (by simp)
  have breaks : Breaks t.extends? (gap ++ written items) := by
    by_cases filled : gap = []
    · subst filled
      cases items with
      | nil => intro b first; cases first
      | cons next later =>
        have fine := (valid.tail next (by simp)).1
        simpa [written] using token_breaks fine.spelled_bytes (apart next rfl rfl)
    · exact gap_breaks blank filled t
  obtain ⟨q, passed⟩ := scanAt_gap blank (p.right (Text.bytesOf t.lexeme).length) (written items)
  refine ⟨q, ?_⟩
  rw [written, List.flatMap_cons, List.append_assoc, ← passed]
  exact scanAt_token good.spelled_bytes breaks p

theorem written_merged (valid : AllValid ((t, []) :: (u, gap) :: items)) (merges : Merges t u) :
    ∃ v, AllValid ((v, gap) :: items) ∧
      written ((v, gap) :: items) = written ((t, []) :: (u, gap) :: items) := by
  have first := (valid (t, []) (by simp)).1
  obtain ⟨second, blank⟩ := valid (u, gap) (by simp)
  obtain ⟨v, spelled⟩ := merge first.spelled_bytes second.spelled_bytes merges
  refine ⟨v, ?_, by simp [written, spelled.bytes]⟩
  rintro item (_ | ⟨_, member⟩)
  · exact ⟨spelled.valid, blank⟩
  · exact valid.tail.tail item member

-- Whatever is written is scanned. Where two tokens merge, they count as one, so that the
-- number of tokens falls; elsewhere each token comes back.
theorem scanAt_written (items : List (Token × List UInt8)) (valid : AllValid items) (p : Position) :
    ∃ tokens, scanAt p (written items) = .ok tokens ∧ tokens.length ≤ items.length ∧
      (Separated items → tokens.map face = items.map fun item => item.1.face) ∧
      (¬Separated items → tokens.length < items.length) := by
  induction size : items.length using Nat.strongRecOn generalizing items p with
  | ind n ih =>
    cases items with
    | nil => exact ⟨[], rfl, Nat.zero_le _, fun _ => rfl, fun mixed => absurd .nil mixed⟩
    | cons item items =>
      obtain ⟨t, gap⟩ := item
      simp only [List.length_cons] at size
      by_cases apart : ∀ next ∈ items.head?, gap = [] → ¬Merges t next.1
      · obtain ⟨q, step⟩ := scanAt_apart valid apart p
        obtain ⟨tokens, read, most, same, fewer⟩ := ih _ (by omega) items valid.tail q rfl
        refine ⟨{ t with position := p } :: tokens, by rw [step, read]; rfl, ?_, ?_, ?_⟩
        · rw [List.length_cons]
          omega
        · intro separated
          rw [List.map_cons, List.map_cons, same separated.tail]
          rfl
        · intro mixed
          have count := fewer fun separated => mixed (List.isChain_cons.mpr ⟨apart, separated⟩)
          rw [List.length_cons]
          omega
      · simp only [not_forall, not_not] at apart
        obtain ⟨next, first, rfl, merges⟩ := apart
        obtain ⟨later, rfl⟩ := List.head?_eq_some_iff.mp first
        obtain ⟨v, together, same⟩ := written_merged valid merges
        simp only [List.length_cons] at size
        obtain ⟨tokens, read, most, _⟩ := ih (later.length + 1) (by omega) _ together p rfl
        refine ⟨tokens, by rw [← same, read], by omega, ?_, fun _ => by omega⟩
        intro separated
        exact absurd merges ((List.isChain_cons_cons.mp separated).1 rfl)

theorem scan_written_exact (lead : List UInt8) (items : List (Token × List UInt8))
    (blank : IsGap lead) (valid : AllValid items) :
    ∃ tokens, scan (lead ++ written items) = .ok tokens ∧
      (tokens.map face = items.map (fun item => item.1.face) ↔ Separated items) ∧
      ∀ t ∈ tokens, t.kind = .number → t.value = some (numeralValue t.lexeme : Int) := by
  obtain ⟨p, passed⟩ := scanAt_gap blank .origin (written items)
  obtain ⟨tokens, read, _, same, fewer⟩ := scanAt_written items valid p
  refine ⟨tokens, by rw [scan_eq, passed, read], ⟨fun equal => ?_, same⟩, ?_⟩
  · by_contra mixed
    have count := congrArg List.length equal
    simp only [List.length_map] at count
    exact absurd count (Nat.ne_of_lt (fewer mixed))
  · intro t member sort
    exact (scanAt_valid read t member).number_value sort

def lessTen (gap : List UInt8) : List (Token × List UInt8) :=
  [(⟨.origin, .identifier, "a", none⟩, gap), (⟨.origin, .operator, "-", none⟩, []),
    (⟨.origin, .number, "10", some 10⟩, [10])]

theorem lessTen_valid (blank : IsGap gap) : AllValid (lessTen gap) := by
  have name : Valid ⟨.origin, .identifier, "a", none⟩ := .word rfl (by decide) rfl
  have minus : Valid ⟨.origin, .operator, "-", none⟩ := .single (by decide) rfl
  have ten : Valid ⟨.origin, .number, "10", some 10⟩ := .number rfl (by decide) (by decide)
  simpa [AllValid, lessTen, name, minus, ten, IsGap] using blank

theorem scan_lessTen :
    (∃ tokens, scan ([32] ++ written (lessTen [9])) = .ok tokens ∧
      tokens.map face = (lessTen [9]).map (fun item => item.1.face) ∧
      ∃ t ∈ tokens, t.kind = .number ∧ t.value = some (numeralValue t.lexeme : Int)) ∧
    ∃ tokens, scan ([32] ++ written (lessTen [])) = .ok tokens ∧
      tokens.map face ≠ (lessTen []).map fun item => item.1.face := by
  have blank : IsGap [32] := by simp [IsGap]
  constructor
  · obtain ⟨tokens, read, same, values⟩ :=
      scan_written_exact [32] (lessTen [9]) blank (lessTen_valid (by simp [IsGap]))
    have faces := same.mpr (by simp [Separated, lessTen, Merges, isWordKind])
    have listed : (.number, "10", some 10) ∈ tokens.map face := by simp [faces, lessTen, face]
    obtain ⟨t, member, shown⟩ := List.mem_map.mp listed
    have sort : t.kind = .number := congrArg (·.1) shown
    exact ⟨tokens, read, faces, t, member, sort, values t member sort⟩
  · obtain ⟨tokens, read, same, _⟩ :=
      scan_written_exact [32] (lessTen []) blank (lessTen_valid (by simp [IsGap]))
    exact ⟨tokens, read, same.not.mpr (by simp [Separated, lessTen, Merges, isWordKind, Token.is])⟩

end Minilang.Token
