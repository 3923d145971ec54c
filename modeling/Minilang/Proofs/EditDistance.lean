import Minilang.Run.Suggestion

namespace Minilang

inductive Edit : List Char → List Char → Prop where
  | insert : Edit cs (c :: cs)
  | delete : Edit (c :: cs) cs
  | replace : Edit (c :: cs) (d :: cs)
  | behind (later : Edit cs ds) : Edit (c :: cs) (c :: ds)

inductive Edits : Nat → List Char → List Char → Prop where
  | none : Edits 0 cs cs
  | next (first : Edit cs ds) (later : Edits n ds es) : Edits (n + 1) cs es

namespace Edits

theorem behind (edits : Edits n cs ds) (c : Char) : Edits n (c :: cs) (c :: ds) := by
  induction edits with
  | none => exact .none
  | next first _ ih => exact .next (.behind first) ih

theorem insertAll (ds : List Char) : Edits ds.length [] ds := by
  induction ds with
  | nil => exact .none
  | cons d ds ih => exact .next .insert (ih.behind d)

theorem deleteAll (cs : List Char) : Edits cs.length cs [] := by
  induction cs with
  | nil => exact .none
  | cons c cs ih => exact .next .delete ih

theorem least (one : Edits m cs ds) (other : Edits n cs ds) : Edits (min m n) cs ds := by
  rcases Nat.le_total m n with less | more
  · rwa [Nat.min_eq_left less]
  · rwa [Nat.min_eq_right more]

end Edits

-- The recurrence behind the table: it looks at the characters in front, and one of the texts
-- loses its first.
def distance : List Char → List Char → Nat
  | [], ds => ds.length
  | c :: cs, [] => cs.length + 1
  | c :: cs, d :: ds =>
    min (min (distance cs (d :: ds) + 1) (distance (c :: cs) ds + 1))
      (distance cs ds + if c == d then 0 else 1)

theorem edits_distance (cs ds : List Char) : Edits (distance cs ds) cs ds := by
  fun_induction distance cs ds with
  | case1 ds => exact .insertAll ds
  | case2 c cs => exact .deleteAll (c :: cs)
  | case3 c cs d ds up left diagonal =>
    refine .least (.least (.next .delete up) (.next .insert (left.behind d))) ?_
    by_cases same : c = d
    · subst same
      simpa using diagonal.behind c
    · rw [if_neg (by simpa using same)]
      exact .next .replace (diagonal.behind d)

@[simp]
theorem distance_self (cs : List Char) : distance cs cs = 0 := by
  induction cs with
  | nil => simp [distance]
  | cons c cs ih => simp [distance, ih]

section Change

variable (c d : Char) (cs : List Char)

@[simp]
theorem distance_nil : distance cs [] = cs.length := by
  cases cs <;> simp [distance]

theorem distance_cons_left (es : List Char) : distance (c :: cs) es ≤ distance cs es + 1 := by
  cases es with
  | nil => simp
  | cons e es =>
    rw [distance]
    omega

theorem distance_cons_right (es : List Char) : distance cs (c :: es) ≤ distance cs es + 1 := by
  cases cs with
  | nil => simp [distance]
  | cons e cs =>
    rw [distance]
    omega

theorem distance_le_cons (es : List Char) : distance cs es ≤ distance (c :: cs) es + 1 := by
  induction es with
  | nil =>
    simp only [distance_nil, List.length_cons]
    omega
  | cons e es ih =>
    have put := distance_cons_right e cs es
    rw [distance]
    omega

theorem distance_replace (es : List Char) : distance (c :: cs) es ≤ distance (d :: cs) es + 1 := by
  induction es with
  | nil => simp
  | cons e es ih =>
    have taken := distance_cons_left c cs es
    have cost : (if c == e then 0 else 1) ≤ 1 := by split <;> decide
    rw [distance, distance]
    omega

end Change

theorem Edit.distance_le (edit : Edit cs ds) (es : List Char) :
    distance cs es ≤ distance ds es + 1 := by
  induction edit generalizing es with
  | insert => exact distance_le_cons _ _ es
  | delete => exact distance_cons_left _ _ es
  | replace => exact distance_replace _ _ _ es
  | @behind cs ds c later ih =>
    induction es with
    | nil =>
      have := ih []
      simp only [distance_nil, List.length_cons] at *
      omega
    | cons e es inner =>
      have one := ih (e :: es)
      have two := ih es
      rw [distance, distance]
      omega

theorem Edits.distance_le (edits : Edits n cs ds) : distance cs ds ≤ n := by
  induction edits with
  | none => exact Nat.le_of_eq (distance_self _)
  | next first _ ih => exact Nat.le_trans (first.distance_le _) (Nat.add_le_add_right ih 1)

-- The table. A row holds the distances from what was read of one text to all that can have been
-- read of the other; both are reversed, for it is their last characters that are compared.
def entries (read passed : List Char) : List Char → List Nat
  | [] => []
  | b :: bs => distance read (b :: passed) :: entries read (b :: passed) bs

def tableRow (word read : List Char) : List Nat := distance read [] :: entries read [] word

theorem fillRow_entries (a : Char) (read passed bs : List Char) :
    fillRow a bs (distance read passed) (distance (a :: read) passed) (entries read passed bs) =
      entries (a :: read) passed bs := by
  induction bs generalizing passed with
  | nil => rfl
  | cons b bs ih =>
    have here : min (min (distance read (b :: passed) + 1) (distance (a :: read) passed + 1))
        (distance read passed + if a == b then 0 else 1) = distance (a :: read) (b :: passed) := by
      rw [distance]
    rw [entries, fillRow, here, ih, entries]

theorem nextRow_tableRow (word read : List Char) (a : Char) :
    nextRow word (tableRow word read) a = tableRow word (a :: read) := by
  have corner : distance read [] + 1 = distance (a :: read) [] := by simp
  rw [tableRow, nextRow, corner, fillRow_entries, tableRow]

theorem foldl_tableRow (word as read : List Char) :
    as.foldl (nextRow word) (tableRow word read) = tableRow word (as.reverse ++ read) := by
  induction as generalizing read with
  | nil => rfl
  | cons a as ih =>
    rw [List.foldl_cons, nextRow_tableRow, ih]
    simp

theorem firstRow (word : List Char) : List.range (word.length + 1) = tableRow word [] := by
  have all (passed : List Char) :
      entries [] passed word = List.range' (passed.length + 1) word.length := by
    induction word generalizing passed with
    | nil => rfl
    | cons b bs ih =>
      rw [entries, ih, List.length_cons, List.length_cons, List.range'_succ, distance]
      rfl
  rw [tableRow, all, List.range_eq_range', List.range'_succ, distance]
  rfl

theorem lastEntry (read passed word : List Char) :
    (distance read passed :: entries read passed word).getLastD 0 =
      distance read (word.reverse ++ passed) := by
  induction word generalizing passed with
  | nil => rfl
  | cons b bs ih => simpa [entries] using ih (b :: passed)

theorem editDistance_eq (a b : String) :
    editDistance a b = distance a.toList.reverse b.toList.reverse := by
  rw [editDistance, firstRow, foldl_tableRow, tableRow, lastEntry, List.append_nil, List.append_nil]

-- Edits do not depend on the direction in which a text is read.
namespace Edit

theorem append (edit : Edit cs ds) (es : List Char) : Edit (cs ++ es) (ds ++ es) := by
  induction edit with
  | insert => exact .insert
  | delete => exact .delete
  | replace => exact .replace
  | behind _ ih => exact .behind ih

theorem prepend (edit : Edit cs ds) (es : List Char) : Edit (es ++ cs) (es ++ ds) := by
  induction es with
  | nil => exact edit
  | cons e es ih => exact .behind ih

theorem reverse (edit : Edit cs ds) : Edit cs.reverse ds.reverse := by
  induction edit with
  | @insert cs c => simpa using (insert : Edit [] [c]).prepend cs.reverse
  | @delete c cs => simpa using (delete : Edit [c] []).prepend cs.reverse
  | @replace c cs d => simpa using (replace : Edit [c] [d]).prepend cs.reverse
  | @behind cs ds c _ ih => simpa using ih.append [c]

end Edit

theorem Edits.reverse (edits : Edits n cs ds) : Edits n cs.reverse ds.reverse := by
  induction edits with
  | none => exact .none
  | next first _ ih => exact .next first.reverse ih

theorem edits_editDistance (a b : String) : Edits (editDistance a b) a.toList b.toList := by
  rw [editDistance_eq]
  simpa using (edits_distance a.toList.reverse b.toList.reverse).reverse

theorem editDistance_least {a b : String} (edits : Edits n a.toList b.toList) :
    editDistance a b ≤ n := by
  rw [editDistance_eq]
  exact edits.reverse.distance_le

end Minilang
