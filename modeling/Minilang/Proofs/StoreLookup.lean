import Minilang.Store

namespace Minilang

section Bindings

variable {name other : String} {value : Int} {bindings : List (String × Int)}

theorem lookup_binding :
    ((name, value) :: bindings).lookup other =
      if other = name then some value else bindings.lookup other := by
  by_cases same : other = name
  · simp [same]
  · simp [List.lookup_cons, beq_false_of_ne same, same]

theorem lookup_insertBinding :
    (insertBinding name value bindings).lookup other =
      if other = name then some value else bindings.lookup other := by
  induction bindings with
  | nil => simp [insertBinding, lookup_binding]
  | cons head rest ih =>
    obtain ⟨key, old⟩ := head
    unfold insertBinding
    split
    · rw [lookup_binding]
    · split
      · rename_i here
        subst here
        simp only [lookup_binding]
        split <;> rfl
      · rename_i differs
        rw [lookup_binding, lookup_binding, ih]
        by_cases same : other = key
        · subst same
          simp [Ne.symm differs]
        · simp [same]

theorem lookup_isSome : (bindings.lookup name).isSome ↔ name ∈ bindings.map (·.1) := by
  induction bindings with
  | nil => simp
  | cons entry rest ih =>
    rw [List.map_cons, List.mem_cons, ← ih, lookup_binding]
    by_cases here : name = entry.1 <;> simp [here]

end Bindings

namespace Store

@[simp, grind =]
theorem lookup?_define (s : Store) (name : String) (value : Int) (other : String) :
    (s.define name value).lookup? other = if other = name then some value else s.lookup? other :=
  lookup_insertBinding

@[simp, grind =]
theorem mem_names {s : Store} {name : String} : name ∈ s.names ↔ (s.lookup? name).isSome :=
  lookup_isSome.symm

theorem names_ordered (s : Store) : s.names.Pairwise (· < ·) := List.pairwise_map.mpr s.ordered

-- What a name reads as when an unbound one counts as zero.
def read (s : Store) (name : String) : Int := (s.lookup? name).getD 0

@[simp, grind =]
theorem read_define (s : Store) (name : String) (value : Int) (other : String) :
    (s.define name value).read other = if other = name then value else s.read other := by
  rw [read, lookup?_define]
  split <;> rfl

def zeroFilled (s : Store) : List String → Store
  | [] => s
  | name :: names =>
    match s.lookup? name with
    | some _ => s.zeroFilled names
    | none => (s.define name 0).zeroFilled names

@[simp, grind =]
theorem lookup?_zeroFilled (names : List String) (s : Store) (name : String) :
    (s.zeroFilled names).lookup? name =
      if name ∈ names then some (s.read name) else s.lookup? name := by
  induction names generalizing s with
  | nil => simp [zeroFilled]
  | cons first names ih =>
    unfold zeroFilled
    split
    · rename_i value found
      rw [ih]
      by_cases here : name = first
      · subst here
        simp [read, found]
      · simp [here]
    · rename_i free
      rw [ih]
      by_cases here : name = first
      · subst here
        simp [read, free]
      · simp [here]

end Store

end Minilang
