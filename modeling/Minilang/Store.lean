namespace Minilang

def insertBinding (name : String) (value : Int) : List (String × Int) → List (String × Int)
  | [] => [(name, value)]
  | (key, old) :: rest =>
    if name < key then (name, value) :: (key, old) :: rest
    else if name = key then (name, value) :: rest
    else (key, old) :: insertBinding name value rest

theorem mem_insertBinding {name : String} {value : Int} {entry : String × Int} :
    ∀ {bindings : List (String × Int)}, entry ∈ insertBinding name value bindings →
      entry = (name, value) ∨ entry ∈ bindings
  | [], member => by simpa [insertBinding] using member
  | (key, old) :: rest, member => by
    unfold insertBinding at member
    split at member
    · simpa using member
    · split at member
      · rcases List.mem_cons.mp member with here | later
        · exact .inl here
        · exact .inr (List.mem_cons_of_mem _ later)
      · rcases List.mem_cons.mp member with here | later
        · exact .inr (by simp [here])
        · rcases mem_insertBinding later with new | kept
          · exact .inl new
          · exact .inr (List.mem_cons_of_mem _ kept)

theorem insertBinding_ordered (name : String) (value : Int) (bindings : List (String × Int))
    (ordered : bindings.Pairwise fun a b => a.1 < b.1) :
    (insertBinding name value bindings).Pairwise fun a b => a.1 < b.1 := by
  induction bindings with
  | nil => simp [insertBinding]
  | cons head rest ih =>
    obtain ⟨key, old⟩ := head
    have above := (List.pairwise_cons.mp ordered).1
    have tail := (List.pairwise_cons.mp ordered).2
    unfold insertBinding
    split
    · rename_i before
      refine List.pairwise_cons.mpr ⟨?_, ordered⟩
      intro entry member
      rcases List.mem_cons.mp member with rfl | later
      · exact before
      · exact String.lt_trans before (above entry later)
    · split
      · rename_i same
        subst same
        exact List.pairwise_cons.mpr ⟨above, tail⟩
      · rename_i notBefore different
        refine List.pairwise_cons.mpr ⟨?_, ih tail⟩
        intro entry member
        rcases mem_insertBinding member with rfl | kept
        · have least : key ≤ name := String.not_lt.mp notBefore
          exact Decidable.byContradiction fun notAfter =>
            different (String.le_antisymm (String.not_lt.mp notAfter) least)
        · exact above entry kept

-- One flat store serves a whole run; bodies of branches and loops bind into it directly.
structure Store where
  bindings : List (String × Int)
  ordered : bindings.Pairwise fun a b => a.1 < b.1

namespace Store

def empty : Store := ⟨[], .nil⟩

instance : Inhabited Store := ⟨empty⟩

def define (s : Store) (name : String) (value : Int) : Store :=
  ⟨insertBinding name value s.bindings, insertBinding_ordered _ _ _ s.ordered⟩

def lookup? (s : Store) (name : String) : Option Int := s.bindings.lookup name

def names (s : Store) : List String := s.bindings.map (·.1)

def size (s : Store) : Nat := s.bindings.length

def ofBindings (bindings : List (String × Int)) : Store :=
  bindings.foldl (fun s entry => s.define entry.1 entry.2) empty

def snapshot (s : Store) : List (String × Int) := s.bindings

-- What a store held before it is restored or reset is lost.
def restore (_ : Store) (entries : List (String × Int)) : Store := ofBindings entries

def reset (_ : Store) : Store := empty

end Store

end Minilang
