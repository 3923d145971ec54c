import Minilang.Proofs.PatternSyntax

namespace Minilang.Pattern

inductive Spot where
  | outside
  | escaped
  | inside
  | escapedInside
deriving DecidableEq

def Spot.next : Spot → UInt8 → Spot
  | outside, b => if b = byte '\\' then escaped else if b = byte '[' then inside else outside
  | escaped, _ => outside
  | inside, b => if b = byte '\\' then escapedInside else if b = byte ']' then outside else inside
  | escapedInside, _ => inside

def spot (start : Spot) (p : Bytes) : Spot := p.foldl Spot.next start

inductive Inside : Spot → Bytes → Prop where
  | done : Inside .inside []
  | step (kept : s ≠ .outside) (later : Inside (s.next b) p) : Inside s (b :: p)

theorem Inside.append (first : Inside s p) (second : Inside .inside q) : Inside s (p ++ q) := by
  induction first with
  | done => exact second
  | step kept _ ih => exact .step kept ih

theorem inside_plain (p : Bytes) (none : ∀ b ∈ p, b ≠ byte '\\' ∧ b ≠ byte ']') :
    Inside .inside p := by
  induction p with
  | nil => exact .done
  | cons b p ih =>
    obtain ⟨⟨backslash, close⟩, later⟩ := List.forall_mem_cons.mp none
    have stays : Spot.next .inside b = .inside := by simp [Spot.next, backslash, close]
    exact .step (by decide) (by rw [stays]; exact ih later)

theorem encoded_tail (encoded : Text.Encoded (b :: bs) code) :
    ∀ c ∈ bs, c ≠ byte '\\' ∧ c ≠ byte ']' := by
  intro c member
  have high := encoded.high.2 c member
  constructor <;> rintro rfl <;> exact absurd high (by decide)

theorem RangeEnd.inside (given : RangeEnd e) : Inside .inside e := by
  cases given with
  | plain encoded _ close backslash =>
    exact inside_plain _ (List.forall_mem_cons.mpr ⟨⟨backslash, close⟩, encoded_tail encoded⟩)
  | @escaped bs code encoded =>
    cases bs with
    | nil => cases encoded
    | cons b bs =>
      exact .step (by decide) (.step (by decide) (inside_plain bs (encoded_tail encoded)))

theorem Range.inside (given : Range r) : Inside .inside r := by
  cases given with
  | single only => exact only.inside
  | span low high => exact low.inside.append (.step (by decide) high.inside)

theorem Ranges.inside (given : Ranges first r) : Inside .inside r := by
  induction given with
  | done => exact .done
  | more range _ ih => exact range.inside.append ih

-- A part of a pattern that ends outside contains the whole of each bracket that it opens.
theorem Inside.cut (given : Inside s r) (same : r ++ byte ']' :: p = a ++ c)
    (out : spot s a = .outside) :
    ∃ d, a = r ++ byte ']' :: d ∧ p = d ++ c ∧ spot .outside d = .outside := by
  induction given generalizing a with
  | done =>
    cases a with
    | nil => cases out
    | cons x a =>
      obtain ⟨rfl, rest⟩ := List.cons.inj same
      exact ⟨a, rfl, rest, out⟩
  | step kept _ ih =>
    cases a with
    | nil => exact absurd out kept
    | cons x a =>
      obtain ⟨rfl, rest⟩ := List.cons.inj same
      obtain ⟨d, rfl, after, later⟩ := ih rest out
      exact ⟨d, rfl, after, later⟩

theorem WellFormed.cut (given : WellFormed p) (same : p = a ++ c) (out : spot .outside a = .outside) :
    WellFormed a ∧ WellFormed c := by
  induction given generalizing a with
  | nil =>
    obtain ⟨rfl, rfl⟩ := List.nil_eq_append_iff.mp same
    exact ⟨.nil, .nil⟩
  | @plain b p bracket backslash later ih =>
    cases a with
    | nil =>
      obtain rfl : c = _ := same.symm
      exact ⟨.nil, .plain bracket backslash later⟩
    | cons x a =>
      obtain ⟨rfl, rest⟩ := List.cons.inj same
      have stays : Spot.next .outside b = .outside := by simp [Spot.next, backslash, bracket]
      rw [spot, List.foldl_cons, stays] at out
      obtain ⟨before, after⟩ := ih rest out
      exact ⟨.plain bracket backslash before, after⟩
  | escaped later ih =>
    cases a with
    | nil =>
      obtain rfl : c = _ := same.symm
      exact ⟨.nil, .escaped later⟩
    | cons x a =>
      obtain ⟨rfl, rest⟩ := List.cons.inj same
      cases a with
      | nil => cases out
      | cons y a =>
        obtain ⟨rfl, behind⟩ := List.cons.inj rest
        obtain ⟨before, after⟩ := ih behind out
        exact ⟨.escaped before, after⟩
  | bracket first inside later ih =>
    cases a with
    | nil =>
      obtain rfl : c = _ := same.symm
      exact ⟨.nil, .bracket first inside later⟩
    | cons x a =>
      obtain ⟨rfl, rest⟩ := List.cons.inj same
      obtain ⟨d, rfl, rest, out⟩ := inside.inside.cut rest out
      obtain ⟨before, after⟩ := ih rest out
      exact ⟨.bracket first inside before, after⟩
  | negated inside later ih =>
    cases a with
    | nil =>
      obtain rfl : c = _ := same.symm
      exact ⟨.nil, .negated inside later⟩
    | cons x a =>
      obtain ⟨rfl, rest⟩ := List.cons.inj same
      have caret : Inside .inside (byte '^' :: _) := .step (by decide) inside.inside
      obtain ⟨d, rfl, rest, out⟩ := caret.cut rest out
      obtain ⟨before, after⟩ := ih rest out
      exact ⟨.negated inside before, after⟩

def bracketSpot (inBrackets : Bool) : Spot := if inBrackets then .inside else .outside

theorem next_bracketSpot (other : b ≠ byte '\\') (inBrackets : Bool) :
    (bracketSpot inBrackets).next b =
      bracketSpot (if b == byte '[' then true else if b == byte ']' then false else inBrackets) := by
  have apart : byte '[' ≠ byte ']' := by decide
  cases inBrackets <;> by_cases opens : b = byte '[' <;> by_cases closes : b = byte ']' <;>
    simp_all [bracketSpot, Spot.next]

theorem chunkEnd_parts (inBrackets : Bool) (p : Bytes) :
    (chunkEnd inBrackets p).1 ++ (chunkEnd inBrackets p).2 = p ∧
      ((chunkEnd inBrackets p).2 = [] ∨
        spot (bracketSpot inBrackets) (chunkEnd inBrackets p).1 = .outside) := by
  fun_induction chunkEnd inBrackets p with
  | case1 => exact ⟨rfl, .inl rfl⟩
  | case2 => exact ⟨rfl, .inl rfl⟩
  | case3 inBrackets b backslash c rest chunk after ended ih =>
    rw [ended] at ih
    obtain rfl : b = byte '\\' := by simpa using backslash
    have stays : ((bracketSpot inBrackets).next (byte '\\')).next c = bracketSpot inBrackets := by
      cases inBrackets <;> rfl
    refine ⟨by rw [← ih.1]; rfl, ih.2.imp_right fun outside => ?_⟩
    rw [spot, List.foldl_cons, List.foldl_cons, stays]
    exact outside
  | case4 inBrackets b rest other star =>
    simp only [Bool.and_eq_true, Bool.not_eq_true'] at star
    refine ⟨rfl, .inr ?_⟩
    rw [star.2]
    rfl
  | case5 inBrackets b rest other star next chunk after ended ih =>
    rw [ended] at ih
    refine ⟨by rw [← ih.1]; rfl, ih.2.imp_right fun outside => ?_⟩
    rw [spot, List.foldl_cons, next_bracketSpot (by simpa using other)]
    exact outside

theorem firstChunk_parts (p : Bytes) :
    p.takeWhile (· == byte '*') ++ ((firstChunk p).2.1 ++ (firstChunk p).2.2) = p := by
  unfold firstChunk
  rw [(chunkEnd_parts false _).1, List.takeWhile_append_dropWhile]

theorem wellFormed_stars (p : Bytes) : WellFormed (p.takeWhile (· == byte '*')) := by
  apply wellFormed_plain
  intro b member
  obtain rfl : b = byte '*' := by simpa using List.all_eq_true.mp List.all_takeWhile b member
  decide

theorem spot_stars (p : Bytes) : spot .outside (p.takeWhile (· == byte '*')) = .outside := by
  induction p with
  | nil => rfl
  | cons b p ih =>
    rw [List.takeWhile_cons]
    split
    · rename_i star
      obtain rfl : b = byte '*' := by simpa using star
      exact ih
    · rfl

theorem wellFormed_iff (p : Bytes) :
    WellFormed p ↔ WellFormed (firstChunk p).2.1 ∧ WellFormed (firstChunk p).2.2 := by
  constructor
  · intro given
    obtain ⟨_, behind⟩ := given.cut (firstChunk_parts p).symm (spot_stars p)
    rcases (chunkEnd_parts false (p.dropWhile (· == byte '*'))).2 with ended | outside
    · have rest : (firstChunk p).2.2 = [] := ended
      rw [rest] at behind ⊢
      rw [List.append_nil] at behind
      exact ⟨behind, .nil⟩
    · exact behind.cut rfl outside
  · intro parts
    rw [← firstChunk_parts p]
    exact (wellFormed_stars p).append (parts.1.append parts.2)

theorem afterStar_isSome (given : WellFormed chunk) (last : Bool) (name : Bytes) :
    (afterStar chunk last name).isSome := by
  induction name with
  | nil => rfl
  | cons b name ih =>
    rw [afterStar]
    split
    · rfl
    · obtain ⟨found, same⟩ := Option.isSome_iff_exists.mp ((chunkMatch_isSome chunk name).mpr given)
      rw [same]
      cases found with
      | fails => exact ih
      | leaves rest =>
        dsimp only
        split
        · exact ih
        · rfl

-- What a match comes to when its chunk does not fit in place: only behind a star may it fit
-- further on.
theorem skipping_isSome (given : WellFormed chunk) (later : ∀ left, (matchFrom n rest left).isSome)
    (star : Bool) (name : Bytes) :
    (if star = true then
      match afterStar chunk rest.isEmpty name with
      | none => none
      | some (.leaves left) => matchFrom n rest left
      | some .fails => some false
    else some false).isSome := by
  split
  · obtain ⟨found, same⟩ := Option.isSome_iff_exists.mp (afterStar_isSome given rest.isEmpty name)
    rw [same]
    cases found with
    | fails => rfl
    | leaves left => exact later left
  · rfl

theorem matchFrom_isSome (given : WellFormed p) (n : Nat) (name : Bytes) :
    (matchFrom n p name).isSome := by
  induction n generalizing p name with
  | zero => rfl
  | succ n ih =>
    obtain ⟨first, behind⟩ := (wellFormed_iff p).mp given
    rw [matchFrom]
    split
    · rfl
    · generalize firstChunk p = parts at first behind
      obtain ⟨star, chunk, rest⟩ := parts
      dsimp only
      split
      · rfl
      · have skipping := skipping_isSome first (fun left => ih behind left) star name
        obtain ⟨here, same⟩ := Option.isSome_iff_exists.mp ((chunkMatch_isSome chunk name).mpr first)
        rw [same]
        cases here with
        | fails => exact skipping
        | leaves left =>
          dsimp only
          split
          · exact ih behind left
          · exact skipping

-- Every match tries the first chunk, so it finds out whether that one is malformed.
theorem matchFrom_first (read : (matchFrom (n + 1) p name).isSome) :
    WellFormed (firstChunk p).2.1 := by
  by_cases empty : p = []
  · subst empty
    exact .nil
  · rw [matchFrom, if_neg (by simpa using empty)] at read
    generalize firstChunk p = parts at read ⊢
    obtain ⟨star, chunk, rest⟩ := parts
    dsimp only at read ⊢
    split at read
    · rename_i stars
      simp only [Bool.and_eq_true, List.isEmpty_iff] at stars
      rw [stars.2]
      exact .nil
    · apply (chunkMatch_isSome chunk name).mp
      cases here : chunkMatch chunk name with
      | none =>
        rw [here] at read
        cases read
      | some => rfl

theorem matchChunk_fails (read : matchChunk n p .fails = some state) : state = .fails := by
  induction n generalizing p with
  | zero =>
    cases read
    rfl
  | succ n ih =>
    cases p with
    | nil =>
      cases read
      rfl
    | cons b p =>
      rw [matchChunk.eq_def] at read
      dsimp only at read
      rw [ite_self] at read
      split at read
      · split at read
        · cases read
        · exact ih read
      · split at read
        · exact ih read
        · split at read
          · cases read
          · exact ih read

theorem chunkMatch_nothing (filled : chunk ≠ []) (read : chunkMatch chunk [] = some state) :
    state = .fails := by
  obtain ⟨b, p, rfl⟩ := List.exists_cons_of_ne_nil filled
  have fails : chunkMatch (b :: p) [] = matchChunk (b :: p).length (b :: p) .fails := rfl
  rw [fails] at read
  exact matchChunk_fails read

theorem chunkEnd_filled (other : b ≠ byte '*') (p : Bytes) : (chunkEnd false (b :: p)).1 ≠ [] := by
  rw [chunkEnd.eq_def]
  dsimp only
  split
  · split
    · exact List.cons_ne_nil _ _
    · exact List.cons_ne_nil _ _
  · rw [if_neg (by simpa using other)]
    exact List.cons_ne_nil _ _

theorem firstChunk_filled (filled : p ≠ []) (unstarred : (firstChunk p).1 = false) :
    (firstChunk p).2.1 ≠ [] := by
  cases p with
  | nil => exact absurd rfl filled
  | cons b p =>
    have other : b ≠ byte '*' := by simpa [firstChunk] using unstarred
    unfold firstChunk
    rw [List.dropWhile_cons_of_neg (by simpa using other)]
    exact chunkEnd_filled other p

theorem matchFrom_nothing (given : WellFormed (firstChunk p).2.1) (n : Nat) :
    (matchFrom n p []).isSome := by
  cases n with
  | zero => rfl
  | succ n =>
    rw [matchFrom]
    split
    · rfl
    · rename_i filled
      have full := firstChunk_filled (p := p) (by simpa using filled)
      generalize firstChunk p = parts at given full
      obtain ⟨star, chunk, rest⟩ := parts
      dsimp only at given full ⊢
      split
      · rfl
      · rename_i more
        obtain ⟨here, same⟩ := Option.isSome_iff_exists.mp ((chunkMatch_isSome chunk []).mpr given)
        have left : chunk ≠ [] := by
          rintro rfl
          cases star with
          | false => exact full rfl rfl
          | true => exact more rfl
        obtain rfl := chunkMatch_nothing left same
        rw [same]
        cases star <;> rfl

theorem matches?_isSome {pattern : String} (given : WellFormed (Text.bytesOf pattern))
    (name : String) : (matches? pattern name).isSome :=
  matchFrom_isSome given _ _

theorem matches?_nothing (pattern : String) :
    (matches? pattern "").isSome ↔ WellFormed (firstChunk (Text.bytesOf pattern)).2.1 := by
  have nothing : Text.bytesOf "" = [] := by decide +kernel
  constructor
  · exact matchFrom_first
  · intro given
    rw [matches?, nothing]
    exact matchFrom_nothing given _

end Minilang.Pattern
