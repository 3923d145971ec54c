import Minilang.Files.Path

namespace Minilang.Path

variable {rooted : Bool} {cs d : List Char} {piece : List Char} {kept ps : List (List Char)}
variable {path : String}

theorem pieces_eq (cs : List Char) : pieces cs = cs.splitOn '/' := by
  induction cs with
  | nil => simp [pieces]
  | cons c cs ih =>
    rw [List.splitOn_cons_eq_if_modifyHead, ← ih, pieces]
    split
    · rfl
    · have filled : pieces cs ≠ [] := by
        rw [ih]
        exact List.splitOn_ne_nil '/' cs
      cases parts : pieces cs with
      | nil => exact absurd parts filled
      | cons piece more => rfl

theorem pieces_append (before after : List Char) :
    pieces (before ++ '/' :: after) = pieces before ++ pieces after := by
  simp only [pieces_eq, List.splitOn_append_cons_self]

theorem pieces_single (free : '/' ∉ piece) : pieces piece = [piece] := by
  rw [pieces_eq, List.splitOn_eq_singleton free]

theorem pieces_slash (filled : ps ≠ []) (free : ∀ piece ∈ ps, '/' ∉ piece) :
    pieces (slash ps) = ps := by
  rw [pieces_eq, slash, List.splitOn_intercalate '/' free filled]

theorem pieces_induction {P : List Char → Prop} (single : ∀ piece, '/' ∉ piece → P piece)
    (more : ∀ piece rest, '/' ∉ piece → P rest → P (piece ++ '/' :: rest)) (cs : List Char) :
    P cs := by
  by_cases present : '/' ∈ cs
  · obtain ⟨piece, rest, same, free⟩ := List.eq_append_cons_of_mem present
    have shorter : rest.length < cs.length := by
      rw [same, List.length_append, List.length_cons]
      omega
    rw [same]
    exact more piece rest free (pieces_induction single more rest)
  · exact single cs present
termination_by cs.length

theorem pieces_free (cs : List Char) : ∀ piece ∈ pieces cs, '/' ∉ piece := by
  induction cs using pieces_induction with
  | single piece free => simpa [pieces_single free] using free
  | more piece rest free ih =>
    rw [pieces_append, pieces_single free]
    exact List.forall_mem_cons.mpr ⟨free, ih⟩

-- Lengths count a slash with each piece. Empty pieces are not kept, and so not counted by the
-- second.
def weight : List (List Char) → Nat
  | [] => 0
  | piece :: ps => piece.length + 1 + weight ps

def keptWeight (ps : List (List Char)) : Nat := weight (ps.filter fun piece => !piece.isEmpty)

@[simp]
theorem weight_cons (piece : List Char) (ps : List (List Char)) :
    weight (piece :: ps) = piece.length + 1 + weight ps := rfl

@[simp]
theorem weight_append (ps qs : List (List Char)) : weight (ps ++ qs) = weight ps + weight qs := by
  induction ps with
  | nil => exact (Nat.zero_add _).symm
  | cons piece ps ih =>
    rw [List.cons_append, weight_cons, weight_cons, ih]
    omega

@[simp]
theorem weight_reverse (ps : List (List Char)) : weight ps.reverse = weight ps := by
  induction ps with
  | nil => rfl
  | cons piece ps ih =>
    rw [List.reverse_cons, weight_append, ih, weight_cons, weight_cons, weight]
    omega

theorem weight_pieces (cs : List Char) : weight (pieces cs) = cs.length + 1 := by
  induction cs using pieces_induction with
  | single piece free => simp [pieces_single free, weight]
  | more piece rest free ih =>
    rw [pieces_append, pieces_single free, List.singleton_append, weight_cons, ih,
      List.length_append, List.length_cons]
    omega

theorem weight_slash (filled : ps ≠ []) (free : ∀ piece ∈ ps, '/' ∉ piece) :
    weight ps = (slash ps).length + 1 := by
  rw [← weight_pieces, pieces_slash filled free]

theorem keptWeight_le (ps : List (List Char)) : keptWeight ps ≤ weight ps := by
  induction ps with
  | nil => exact Nat.le_refl _
  | cons piece ps ih =>
    unfold keptWeight at ih ⊢
    rw [List.filter_cons, weight_cons]
    split
    · rw [weight_cons]
      omega
    · omega

theorem keepPiece_cases (rooted : Bool) (kept : List (List Char)) (piece : List Char) :
    keepPiece rooted kept piece = kept ∨ keepPiece rooted kept piece = kept.tail ∨
      piece ≠ [] ∧ keepPiece rooted kept piece = piece :: kept := by
  unfold keepPiece
  split
  · exact .inl rfl
  · rename_i other
    have filled : piece ≠ [] := by
      rintro rfl
      exact other rfl
    split
    · rename_i double
      obtain rfl : piece = dotDot := by simpa using double
      split
      · split
        · exact .inr (.inr ⟨filled, rfl⟩)
        · exact .inr (.inl rfl)
      · split
        · exact .inl rfl
        · exact .inr (.inr ⟨filled, rfl⟩)
    · exact .inr (.inr ⟨filled, rfl⟩)

theorem keptWeight_cons (piece : List Char) (ps : List (List Char)) :
    keptWeight (piece :: ps) = (if piece = [] then 0 else piece.length + 1) + keptWeight ps := by
  unfold keptWeight
  rw [List.filter_cons]
  cases piece <;> simp

theorem kept_mem (rooted : Bool) (ps kept : List (List Char)) :
    ∀ x ∈ ps.foldl (keepPiece rooted) kept, x ∈ kept ∨ x ∈ ps ∧ x ≠ [] := by
  induction ps generalizing kept with
  | nil => exact fun x member => .inl member
  | cons piece ps ih =>
    intro x member
    rcases ih _ x member with before | ⟨later, filled⟩
    · rcases keepPiece_cases rooted kept piece with same | same | ⟨filled, same⟩
      · exact .inl (same ▸ before)
      · exact .inl (List.mem_of_mem_tail (same ▸ before))
      · rw [same] at before
        rcases List.mem_cons.mp before with rfl | old
        · exact .inr ⟨List.mem_cons_self, filled⟩
        · exact .inl old
    · exact .inr ⟨List.mem_cons_of_mem _ later, filled⟩

theorem weight_tail (ps : List (List Char)) : weight ps.tail ≤ weight ps := by
  cases ps with
  | nil => exact Nat.le_refl _
  | cons piece ps =>
    rw [weight_cons, List.tail_cons]
    omega

theorem kept_weight (rooted : Bool) (ps kept : List (List Char)) :
    weight (ps.foldl (keepPiece rooted) kept) ≤ weight kept + keptWeight ps := by
  induction ps generalizing kept with
  | nil => exact Nat.le_refl _
  | cons piece ps ih =>
    have later := ih (keepPiece rooted kept piece)
    rw [keptWeight_cons, List.foldl_cons]
    rcases keepPiece_cases rooted kept piece with same | same | ⟨filled, same⟩
    · rw [same] at later ⊢
      omega
    · have shorter := weight_tail kept
      rw [same] at later ⊢
      omega
    · rw [same, weight_cons] at later
      rw [same, if_neg filled]
      omega

def cleaned (path : String) : List (List Char) :=
  ((pieces path.toList).foldl (keepPiece (isAbsolute path)) []).reverse

theorem cleaned_mem (member : x ∈ cleaned path) : x ∈ pieces path.toList ∧ x ≠ [] := by
  rcases kept_mem _ _ _ x (List.mem_reverse.mp member) with none | given
  · cases none
  · exact given

theorem cleaned_free : ∀ x ∈ cleaned path, '/' ∉ x := by
  intro x member
  exact pieces_free _ x (cleaned_mem member).1

theorem cleaned_weight (path : String) : weight (cleaned path) ≤ keptWeight (pieces path.toList) := by
  have bound := kept_weight (isAbsolute path) (pieces path.toList) []
  rw [cleaned, weight_reverse]
  simpa [weight] using bound

theorem slash_filled (filled : cleaned path ≠ []) : slash (cleaned path) ≠ [] := by
  intro empty
  obtain ⟨piece, rest, parts⟩ := List.exists_cons_of_ne_nil filled
  have total := weight_slash filled cleaned_free
  have first : piece ≠ [] := (cleaned_mem (parts ▸ List.mem_cons_self)).2
  have some := List.length_pos_iff.mpr first
  rw [empty, parts, weight_cons, List.length_nil] at total
  omega

theorem clean_eq (path : String) : (clean path).toList =
    if isAbsolute path then '/' :: slash (cleaned path)
    else if cleaned path = [] then dot else slash (cleaned path) := by
  unfold clean
  dsimp only
  rw [← cleaned]
  split
  · exact String.toList_ofList
  · by_cases none : cleaned path = []
    · rw [none]
      rfl
    · rw [if_neg none, if_neg (by simpa using slash_filled none)]
      exact String.toList_ofList

-- Cleaning brings no piece into a path but a dot.
theorem clean_pieces (path : String) :
    ∀ x ∈ pieces (clean path).toList, x = [] ∨ x = dot ∨ x ∈ pieces path.toList := by
  have parts : ∀ x ∈ pieces (slash (cleaned path)), x = [] ∨ x ∈ pieces path.toList := by
    by_cases none : cleaned path = []
    · rw [none]
      exact fun x member => .inl (List.mem_singleton.mp member)
    · rw [pieces_slash none cleaned_free]
      exact fun x member => .inr (cleaned_mem member).1
  intro x member
  rw [clean_eq] at member
  split at member
  · rw [← List.nil_append ('/' :: _), pieces_append] at member
    rcases List.mem_append.mp member with first | later
    · exact .inl (List.mem_singleton.mp first)
    · exact (parts x later).imp_right .inr
  · split at member
    · exact .inr (.inl (List.mem_singleton.mp member))
    · exact (parts x member).imp_right .inr

theorem absolute_iff (path : String) : isAbsolute path = true ↔ ∃ cs, path.toList = '/' :: cs := by
  unfold isAbsolute
  rw [beq_iff_eq, List.head?_eq_some_iff]

theorem clean_absolute (rooted : isAbsolute path = true) : isAbsolute (clean path) = true := by
  rw [absolute_iff, clean_eq, if_pos rooted]
  exact ⟨_, rfl⟩

theorem keptWeight_slash (d : List Char) :
    keptWeight (pieces (d ++ ['/'])) = keptWeight (pieces d) := by
  rw [pieces_append]
  simp [keptWeight, pieces]

theorem keptWeight_root (d : List Char) : keptWeight (pieces ('/' :: d)) = keptWeight (pieces d) := by
  rw [← List.nil_append ('/' :: d), pieces_append]
  simp [keptWeight, pieces]

theorem keptWeight_pieces (d : List Char) : keptWeight (pieces d) ≤ d.length + 1 := by
  rw [← weight_pieces]
  exact keptWeight_le _

theorem clean_shorter (ends : path.toList = d ++ ['/']) (more : d ≠ []) :
    (clean path).length < path.length := by
  have total : path.length = d.length + 1 := by
    rw [← String.length_toList, ends, List.length_append, List.length_singleton]
  have bound := cleaned_weight path
  rw [ends, keptWeight_slash] at bound
  rw [← String.length_toList, clean_eq, total]
  cases d with
  | nil => exact absurd rfl more
  | cons c e =>
    by_cases none : cleaned path = []
    · rw [none]
      split <;> simp [slash, dot]
    · rw [weight_slash none cleaned_free] at bound
      split
      · rename_i rooted
        obtain ⟨cs, root⟩ := (absolute_iff path).mp rooted
        obtain ⟨rfl, _⟩ := List.cons.inj (ends.symm.trans root)
        have most := keptWeight_pieces e
        rw [keptWeight_root] at bound
        simp only [List.length_cons]
        omega
      · have most := keptWeight_pieces (c :: e)
        omega

theorem split_parts (path : String) :
    ∃ d n, split path = (String.ofList d, String.ofList n) ∧ path.toList = d ++ n ∧ '/' ∉ n ∧
      (d = [] ∨ ∃ e, d = e ++ ['/']) := by
  let back := path.toList.reverse
  have whole : path.toList =
      (back.dropWhile (· != '/')).reverse ++ (back.takeWhile (· != '/')).reverse := by
    rw [← List.reverse_append, List.takeWhile_append_dropWhile, List.reverse_reverse]
  have front : path.toList.take (path.toList.length - (back.takeWhile (· != '/')).reverse.length) =
      (back.dropWhile (· != '/')).reverse := by
    rw [whole, List.length_append, Nat.add_sub_cancel, List.take_left]
  refine ⟨(back.dropWhile (· != '/')).reverse, (back.takeWhile (· != '/')).reverse, ?_, whole, ?_, ?_⟩
  · rw [← front]
    rfl
  · intro member
    have other := List.all_eq_true.mp List.all_takeWhile _ (List.mem_reverse.mp member)
    simp at other
  · cases left : back.dropWhile (· != '/') with
    | nil => exact .inl rfl
    | cons c rest =>
      have stop := List.head?_dropWhile_not (· != '/') back
      rw [left] at stop
      obtain rfl : c = '/' := by simpa using stop
      exact .inr ⟨rest.reverse, List.reverse_cons⟩

theorem parent_root : parent "/" = "/" := by
  decide

-- Going up ends: at the root, at the directory that a path without slashes is seen from, or
-- by getting shorter.
theorem parent_cases (path : String) :
    parent path = "." ∨ path = "/" ∨ (parent path).length < path.length := by
  obtain ⟨d, n, parts, whole, _, none | ⟨e, rfl⟩⟩ := split_parts path
  · subst none
    left
    rw [parent, parts]
    rfl
  · right
    have total : path.length = e.length + 1 + n.length := by
      rw [← String.length_toList, whole, List.length_append, List.length_append, List.length_singleton]
    by_cases top : e = []
    · subst top
      have up : parent path = "/" := by
        rw [parent, parts]
        exact parent_root
      by_cases empty : n = []
      · subst empty
        exact .inl (String.toList_inj.mp whole)
      · have positive := List.length_pos_iff.mpr empty
        right
        rw [up, total]
        show 1 < 0 + 1 + n.length
        omega
    · right
      have shorter := clean_shorter String.toList_ofList top
      rw [String.length_ofList, List.length_append, List.length_singleton] at shorter
      rw [parent, parts, total]
      exact Nat.lt_of_lt_of_le shorter (Nat.le_add_right _ _)

theorem parent_absolute (rooted : isAbsolute path = true) : isAbsolute (parent path) = true := by
  obtain ⟨cs, root⟩ := (absolute_iff path).mp rooted
  obtain ⟨d, n, parts, whole, free, _⟩ := split_parts path
  rw [parent, parts]
  apply clean_absolute
  rw [absolute_iff, String.toList_ofList]
  cases d with
  | nil =>
    rw [root, List.nil_append] at whole
    exact absurd (whole ▸ List.mem_cons_self) free
  | cons c d =>
    obtain ⟨rfl, _⟩ := List.cons.inj (root.symm.trans whole)
    exact ⟨d, rfl⟩

theorem join_absolute {base : String} (rooted : isAbsolute base = true) (path : String) :
    isAbsolute (join base path) = true := by
  obtain ⟨cs, root⟩ := (absolute_iff base).mp rooted
  have filled : base ≠ "" := by
    rintro rfl
    cases root
  rw [join, if_neg filled]
  apply clean_absolute
  rw [absolute_iff, String.toList_append, String.toList_append, root]
  exact ⟨_, rfl⟩

theorem absolute_absolute {base : String} (rooted : isAbsolute base = true) (path : String) :
    isAbsolute (absolute base path) = true := by
  unfold absolute
  split
  · rename_i given
    exact clean_absolute given
  · exact join_absolute rooted path

def above : Nat → String → String
  | 0, directory => directory
  | n + 1, directory => above n (parent directory)

theorem above_top (top : parent path = path) (i : Nat) : above i path = path := by
  induction i with
  | zero => rfl
  | succ i ih => rw [above, top, ih]

theorem above_succ (i : Nat) (path : String) : above (i + 1) path = parent (above i path) := by
  induction i generalizing path with
  | zero => rfl
  | succ i ih => exact ih (parent path)

theorem above_add (i j : Nat) (path : String) : above (i + j) path = above j (above i path) := by
  induction i generalizing path with
  | zero => rw [Nat.zero_add, above]
  | succ i ih => rw [Nat.succ_add, above, ih, above]

theorem above_absolute (rooted : isAbsolute path = true) (i : Nat) :
    isAbsolute (above i path) = true := by
  induction i with
  | zero => exact rooted
  | succ i ih =>
    rw [above_succ]
    exact parent_absolute ih

theorem top_absolute (rooted : isAbsolute path = true) (top : parent path = path) : path = "/" := by
  rcases parent_cases path with dotted | root | shorter
  · rw [← top, dotted] at rooted
    exact absurd rooted (by decide)
  · exact root
  · rw [top] at shorter
    exact absurd shorter (Nat.lt_irrefl _)

theorem parent_dot : parent "." = "." := by
  decide

-- The bound is never what ends the list: it is that of all directories up to one with none
-- above it.
theorem ancestorsWithin_chain (n : Nat) (path : String) (bound : path = "." ∨ path.length < n) :
    ∃ m, ancestorsWithin n path = (List.range (m + 1)).map (above · path) ∧
      parent (above m path) = above m path := by
  induction n generalizing path with
  | zero =>
    rcases bound with rfl | short
    · exact ⟨0, rfl, parent_dot⟩
    · cases short
  | succ n ih =>
    rw [ancestorsWithin]
    by_cases top : parent path = path
    · rw [if_pos top]
      exact ⟨0, rfl, top⟩
    · have higher : parent path = "." ∨ (parent path).length < n := by
        rcases parent_cases path with dotted | rfl | shorter
        · exact .inl dotted
        · exact absurd parent_root top
        · rcases bound with rfl | short
          · exact absurd parent_dot top
          · exact .inr (by omega)
      obtain ⟨m, chain, ended⟩ := ih (parent path) higher
      refine ⟨m + 1, ?_, ended⟩
      rw [if_neg top, chain, List.range_succ_eq_map (n := m + 1), List.map_cons, List.map_map]
      rfl

theorem ancestors_chain (path : String) :
    ∃ m, ancestors path = (List.range (m + 1)).map (above · path) ∧
      parent (above m path) = above m path :=
  ancestorsWithin_chain _ path (.inr (Nat.lt_succ_self _))

end Minilang.Path
