import Minilang.Parse.Reading

namespace Minilang

def delimiters : List (TokenKind × String) :=
  [(.paren, "("), (.paren, ")"), (.brace, "\x7b"), (.brace, "\x7d"), (.semicolon, ";")]

def Expectation.Fits : Expectation → Token → Prop
  | .expression, t => t.kind = .number ∨ t.kind = .identifier
  | .lexeme text, t => ∃ kind, (kind, text) ∈ delimiters ∧ t.is kind text

theorem delimiter_kind (one : (kind, text) ∈ delimiters) (two : (other, text) ∈ delimiters) :
    kind = other := by
  simp only [delimiters, List.mem_cons, Prod.mk.injEq, List.not_mem_nil, or_false] at one two
  grind

namespace Reading

variable {α β : Type} {D E : List Token → α → Prop} {reader : List Token → Reading α}
  {ts used rest : List Token} {t : Token} {x : α} {expected : Expectation}

def leaving (r : Reading α) (rest : List Token) : Reading α :=
  match r with
  | ok value _ => ok value rest
  | stuck expected _ => stuck expected rest

def Awaits (D : List Token → α → Prop) (used : List Token) (expected : Expectation) : Prop :=
  (∃ t, expected.Fits t) ∧ ∀ t, expected.Fits t → ∃ later x, D (used ++ t :: later) x

theorem Awaits.imp (awaits : Awaits D used expected) (weaker : ∀ ts x, D ts x → E ts x) :
    Awaits E used expected := by
  refine ⟨awaits.1, ?_⟩
  intro t fits
  obtain ⟨later, x, derived⟩ := awaits.2 t fits
  exact ⟨later, x, weaker _ _ derived⟩

-- What a reader of the rule `D` says of one token list. What it takes derives its value;
-- where it is stuck, it has taken a beginning that the wanted token would continue; and a
-- token that it leaves unread is left whatever comes after that token.
structure FollowsAt (D : List Token → α → Prop) (reader : List Token → Reading α)
    (ts : List Token) : Prop where
  taken : ∀ {x rest}, reader ts = ok x rest → ∃ used, ts = used ++ rest ∧ D used x
  awaits : ∀ {expected rest}, reader ts = stuck expected rest →
    ∃ used, ts = used ++ rest ∧ Awaits D used expected
  settled : ∀ {next rest}, (reader ts).rest = next :: rest →
    ∃ used, ts = used ++ next :: rest ∧
      ∀ later, reader (used ++ next :: later) = (reader ts).leaving (next :: later)

def Follows (D : List Token → α → Prop) (reader : List Token → Reading α) : Prop :=
  ∀ ts, FollowsAt D reader ts

theorem FollowsAt.imp (follows : FollowsAt D reader ts) (weaker : ∀ ts x, D ts x → E ts x) :
    FollowsAt E reader ts where
  taken read := by
    obtain ⟨used, split, derived⟩ := follows.taken read
    exact ⟨used, split, weaker _ _ derived⟩
  awaits read := by
    obtain ⟨used, split, awaits⟩ := follows.awaits read
    exact ⟨used, split, awaits.imp weaker⟩
  settled := follows.settled

theorem FollowsAt.unread {result : Reading α} (follows : FollowsAt D reader (used ++ next :: rest))
    (read : reader (used ++ next :: rest) = result) (left : result.rest = next :: rest)
    (later : List Token) : reader (used ++ next :: later) = result.leaving (next :: later) := by
  subst read
  obtain ⟨again, split, settled⟩ := follows.settled left
  cases List.append_cancel_right split
  exact settled later

theorem Follows.shrinks (follows : Follows D reader) (read : reader ts = ok x rest) :
    rest.length ≤ ts.length := by
  obtain ⟨used, rfl, _⟩ := (follows ts).taken read
  simp

theorem Follows.suffix (follows : Follows D reader) (ts : List Token) :
    (reader ts).rest <:+ ts := by
  cases read : reader ts with
  | ok x rest =>
    obtain ⟨used, split, _⟩ := (follows ts).taken read
    exact ⟨used, split.symm⟩
  | stuck expected rest =>
    obtain ⟨used, split, _⟩ := (follows ts).awaits read
    exact ⟨used, split.symm⟩

theorem Follows.progress (follows : Follows D reader) (filled : ∀ us y, D us y → us ≠ [])
    (read : reader ts = ok x rest) : rest.length < ts.length := by
  obtain ⟨used, rfl, derived⟩ := (follows ts).taken read
  have taken := List.length_pos_iff.mpr (filled used x derived)
  rw [List.length_append]
  omega

theorem Follows.possible (follows : Follows D reader) : ∃ ts x, D ts x := by
  cases read : reader [] with
  | ok x rest =>
    obtain ⟨used, _, derived⟩ := (follows []).taken read
    exact ⟨used, x, derived⟩
  | stuck expected rest =>
    obtain ⟨used, _, ⟨t, fits⟩, awaits⟩ := (follows []).awaits read
    obtain ⟨later, x, derived⟩ := awaits t fits
    exact ⟨_, x, derived⟩

theorem FollowsAt.nil_ok (read : reader [] = ok x []) (derived : D [] x) :
    FollowsAt D reader [] where
  taken found := by
    cases read.symm.trans found
    exact ⟨[], rfl, derived⟩
  awaits found := by cases read.symm.trans found
  settled found := by rw [read] at found; cases found

theorem FollowsAt.nil_stuck (read : reader [] = stuck expected []) (wants : Awaits D [] expected) :
    FollowsAt D reader [] where
  taken found := by cases read.symm.trans found
  awaits found := by
    cases read.symm.trans found
    exact ⟨[], rfl, wants⟩
  settled found := by rw [read] at found; cases found

theorem FollowsAt.leave (same : ∀ rest, reader (t :: rest) = ok x (t :: rest)) (derived : D [] x) :
    FollowsAt D reader (t :: rest) where
  taken found := by
    cases (same rest).symm.trans found
    exact ⟨[], rfl, derived⟩
  awaits found := by cases (same rest).symm.trans found
  settled found := by
    rw [same] at found
    cases found
    exact ⟨[], rfl, fun later => by simp [same, leaving]⟩

theorem FollowsAt.refuse (same : ∀ rest, reader (t :: rest) = stuck expected (t :: rest))
    (wants : Awaits D [] expected) : FollowsAt D reader (t :: rest) where
  taken found := by cases (same rest).symm.trans found
  awaits found := by
    cases (same rest).symm.trans found
    exact ⟨[], rfl, wants⟩
  settled found := by
    rw [same] at found
    cases found
    exact ⟨[], rfl, fun later => by simp [same, leaving]⟩

theorem FollowsAt.take (front : List Token) (other : List Token → Reading α)
    (same : ∀ rest, reader (front ++ rest) = other rest)
    (follows : FollowsAt E other rest) (join : ∀ us x, E us x → D (front ++ us) x) :
    FollowsAt D reader (front ++ rest) where
  taken found := by
    obtain ⟨used, rfl, derived⟩ := follows.taken ((same rest).symm.trans found)
    exact ⟨front ++ used, by simp, join _ _ derived⟩
  awaits found := by
    obtain ⟨used, rfl, possible, awaits⟩ := follows.awaits ((same rest).symm.trans found)
    refine ⟨front ++ used, by simp, possible, ?_⟩
    intro t fits
    obtain ⟨later, x, derived⟩ := awaits t fits
    exact ⟨later, x, by simpa using join _ _ derived⟩
  settled found := by
    rw [same] at found
    obtain ⟨used, rfl, settled⟩ := follows.settled found
    refine ⟨front ++ used, by simp, ?_⟩
    intro later
    rw [List.append_assoc, same, same, settled]

theorem FollowsAt.ofHead (other : List Token → Reading α)
    (same : ∀ rest, reader (t :: rest) = other (t :: rest))
    (follows : FollowsAt D other (t :: rest)) : FollowsAt D reader (t :: rest) where
  taken found := follows.taken ((same rest).symm.trans found)
  awaits found := follows.awaits ((same rest).symm.trans found)
  settled found := by
    rw [same] at found
    obtain ⟨used, split, settled⟩ := follows.settled found
    refine ⟨used, split, ?_⟩
    intro later
    cases used with
    | nil | cons =>
      cases split
      rw [same]
      exact (same _).trans (settled later)

theorem ok_follows (x : α) : Follows (fun ts y => ts = [] ∧ y = x) (ok x) := by
  intro ts
  cases ts with
  | nil => exact .nil_ok rfl ⟨rfl, rfl⟩
  | cons t rest => exact .leave (fun _ => rfl) ⟨rfl, rfl⟩

theorem eat_follows (known : (kind, lexeme) ∈ delimiters) :
    Follows (fun ts t => ts = [t] ∧ t.is kind lexeme) (eat kind lexeme) := by
  have wants : Awaits (fun ts t => ts = [t] ∧ t.is kind lexeme) [] (.lexeme lexeme) := by
    refine ⟨⟨⟨.origin, kind, lexeme, none⟩, kind, known, by simp [Token.is]⟩, ?_⟩
    rintro t ⟨other, listed, mark⟩
    cases delimiter_kind known listed
    exact ⟨[], t, rfl, mark⟩
  intro ts
  cases ts with
  | nil => exact .nil_stuck rfl wants
  | cons t rest =>
    by_cases mark : t.is kind lexeme
    · refine .take [t] (ok t) ?_ (ok_follows t _) ?_
      · intro rest; simp [eat, mark]
      · rintro us x ⟨rfl, rfl⟩; exact ⟨rfl, mark⟩
    · refine .refuse ?_ wants
      intro rest; simp [eat, mark]

theorem FollowsAt.andThen {F : α → List Token → β → Prop} {next : α → List Token → Reading β}
    (first : FollowsAt D reader ts) (second : ∀ x, Follows (F x) (next x)) :
    FollowsAt (fun ts y => ∃ us vs x, ts = us ++ vs ∧ D us x ∧ F x vs y)
      (fun ts => (reader ts).andThen next) ts := by
  cases read : reader ts with
  | stuck expected rest =>
    refine ⟨?_, ?_, ?_⟩
    · intro y left found
      simp [read, Reading.andThen] at found
    · intro wanted left found
      simp only [read, Reading.andThen, stuck.injEq] at found
      obtain ⟨rfl, rfl⟩ := found
      obtain ⟨used, split, fitting, awaits⟩ := first.awaits read
      refine ⟨used, split, fitting, ?_⟩
      intro t fits
      obtain ⟨later, x, derived⟩ := awaits t fits
      obtain ⟨vs, y, continued⟩ := (second x).possible
      exact ⟨later ++ vs, y, used ++ t :: later, vs, x, by simp, derived, continued⟩
    · intro following left found
      have kept : (reader ts).rest = following :: left := by
        simpa [read, Reading.andThen, Reading.rest] using found
      obtain ⟨used, split, settled⟩ := first.settled kept
      refine ⟨used, split, ?_⟩
      intro later
      simp [settled, read, leaving, Reading.andThen]
  | ok x rest =>
    obtain ⟨us, split, derived⟩ := first.taken read
    refine ⟨?_, ?_, ?_⟩
    · intro y left found
      simp only [read, Reading.andThen] at found
      obtain ⟨vs, rfl, continued⟩ := (second x rest).taken found
      exact ⟨us ++ vs, by simp [split], us, vs, x, rfl, derived, continued⟩
    · intro wanted left found
      simp only [read, Reading.andThen] at found
      obtain ⟨vs, rfl, fitting, awaits⟩ := (second x rest).awaits found
      refine ⟨us ++ vs, by simp [split], fitting, ?_⟩
      intro t fits
      obtain ⟨later, y, continued⟩ := awaits t fits
      exact ⟨later, y, us, vs ++ t :: later, x, by simp, derived, continued⟩
    · intro following left found
      simp only [read, Reading.andThen] at found
      obtain ⟨vs, rfl, settled⟩ := (second x rest).settled found
      refine ⟨us ++ vs, by simp [split], ?_⟩
      intro later
      subst split
      -- The second reader was given a list whose head the first one had left unread.
      have again : reader (us ++ (vs ++ following :: later)) = ok x (vs ++ following :: later) := by
        cases vs with
        | nil => exact first.unread read rfl later
        | cons head vs => exact first.unread read rfl (vs ++ following :: later)
      rw [List.append_assoc, again]
      simpa only [read, Reading.andThen] using settled later

theorem FollowsAt.map (f : α → β) (follows : FollowsAt D reader ts) :
    FollowsAt (fun ts y => ∃ x, D ts x ∧ y = f x) (fun ts => (reader ts).map f) ts := by
  refine (follows.andThen fun x => ok_follows (f x)).imp ?_
  rintro ts y ⟨us, vs, x, rfl, derived, rfl, rfl⟩
  exact ⟨x, by simpa using derived, rfl⟩

-- A reader that is bounded by the number of its tokens follows a rule when it does so
-- under every bound, provided that a larger bound changes nothing.
theorem Follows.ofBounded {bounded : Nat → List Token → Reading α}
    (each : ∀ n, Follows D (bounded n))
    (stable : ∀ n ts, ts.length ≤ n → bounded n ts = bounded ts.length ts) :
    Follows D (fun ts => bounded ts.length ts) := by
  intro ts
  refine ⟨(each _ ts).taken, (each _ ts).awaits, ?_⟩
  intro next rest found
  obtain ⟨used, rfl, _⟩ := (each _ ts).settled found
  refine ⟨used, rfl, ?_⟩
  intro later
  let bound := max (used ++ next :: rest).length (used ++ next :: later).length
  have old : bounded bound (used ++ next :: rest) = _ := stable _ _ (Nat.le_max_left _ _)
  have new : bounded bound (used ++ next :: later) = _ := stable _ _ (Nat.le_max_right _ _)
  rw [← new]
  exact (each bound _).unread old found later

end Reading

end Minilang
