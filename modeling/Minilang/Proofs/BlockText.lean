import Minilang.Yaml.Block

namespace Minilang.Yaml

-- A text without blanks, colons and line ends can be taken neither for a list item nor for a
-- field, and it stays on its line.
def Unbroken (text : String) : Prop :=
  text.toList ≠ [] ∧ ∀ c ∈ text.toList, c ≠ ' ' ∧ c ≠ ':' ∧ c ≠ '\n'

instance (text : String) : Decidable (Unbroken text) :=
  decidable_of_iff
    (text.toList ≠ [] ∧ text.toList.all (fun c => c != ' ' && c != ':' && c != '\n') = true)
    (by simp [Unbroken, and_assoc])

theorem Unbroken.whole (unbroken : Unbroken text) : '\n' ∉ text.toList :=
  fun held => (unbroken.2 '\n' held).2.2 rfl

theorem split_inj {mark : Char} {one two rest others : List Char} (clear : mark ∉ one)
    (free : mark ∉ two) (same : one ++ mark :: rest = two ++ mark :: others) :
    one = two ∧ rest = others := by
  induction one generalizing two with
  | nil =>
    cases two with
    | nil => simpa using same
    | cons d two =>
      obtain ⟨rfl, _⟩ := List.cons.inj same
      simp at free
  | cons c one ih =>
    cases two with
    | nil =>
      obtain ⟨rfl, _⟩ := List.cons.inj same
      simp at clear
    | cons d two =>
      obtain ⟨rfl, behind⟩ := List.cons.inj same
      obtain ⟨rfl, later⟩ := ih (fun held => clear (by simp [held])) (fun held => free (by simp [held]))
        behind
      exact ⟨rfl, later⟩

theorem field_inj (unbroken : Unbroken name) (other : Unbroken key)
    (same : name ++ ":" ++ text = key ++ ":" ++ words) : name = key ∧ text = words := by
  have chars : name.toList ++ ':' :: text.toList = key.toList ++ ':' :: words.toList := by
    simpa using congrArg String.toList same
  obtain ⟨names, texts⟩ := split_inj (fun held => (unbroken.2 ':' held).2.1 rfl)
    (fun held => (other.2 ':' held).2.1 rfl) chars
  exact ⟨String.toList_inj.mp names, String.toList_inj.mp texts⟩

inductive Opening where
  | scalar
  | item
  | field

def opening (text : String) : Opening :=
  match text.toList with
  | '-' :: ' ' :: _ => .item
  | chars => if ':' ∈ chars then .field else .scalar

theorem opening_scalar (unbroken : Unbroken text) : opening text = .scalar := by
  unfold opening
  split
  · rename_i rest same
    exact absurd rfl (unbroken.2 ' ' (by simp [same])).1
  · rw [if_neg]
    intro colon
    exact (unbroken.2 ':' colon).2.1 rfl

theorem opening_item (text : String) : opening ("- " ++ text) = .item := by
  unfold opening
  rw [String.toList_append]
  rfl

theorem opening_field (unbroken : Unbroken name) (text : String) :
    opening (name ++ ":" ++ text) = .field := by
  obtain ⟨filled, inside⟩ := unbroken
  have chars : (name ++ ":" ++ text).toList = name.toList ++ ':' :: text.toList := by simp
  unfold opening
  rw [chars]
  split
  · rename_i rest same
    -- The blank would be the second character of the name, or the colon behind it.
    rcases found : name.toList with _ | ⟨c, _ | ⟨d, others⟩⟩
    · exact absurd found filled
    · simp [found] at same
    · simp only [found, List.cons_append, List.cons.injEq] at same
      exact absurd same.2.1 (inside d (by simp [found])).1
  · simp

namespace Block

-- Blocks that can be read back: scalars and names without anything that shapes a document,
-- and no record without fields, which would leave no trace.
mutual
def Tidy : Block → Prop
  | leaf written => Unbroken written ∧ written ≠ "[]"
  | list items => AllTidy items
  | record fields => fields ≠ [] ∧ FieldsTidy fields

def AllTidy : List Block → Prop
  | [] => True
  | item :: rest => item.Tidy ∧ AllTidy rest

def FieldsTidy : List (String × Block) → Prop
  | [] => True
  | (name, value) :: rest => Unbroken name ∧ value.Tidy ∧ FieldsTidy rest
end

def opening : Block → Opening
  | leaf _ => .scalar
  | list [] => .scalar
  | list (_ :: _) => .item
  | record _ => .field

section Lines

variable {indent : Nat} {name text : String} {value : Block} {fields : List (String × Block)}

def beside (value : Block) : String :=
  match value.inline? with
  | some text => " " ++ text
  | none => ""

def nested (indent : Nat) (value : Block) : List Line :=
  match value.inline? with
  | some _ => []
  | none => lines (indent + 2) value

theorem fieldLines_cons (indent : Nat) (name : String) (value : Block)
    (fields : List (String × Block)) :
    fieldLines indent ((name, value) :: fields) =
      ⟨indent, name ++ ":" ++ value.beside⟩ ::
        (value.nested indent ++ fieldLines indent fields) := by
  rw [fieldLines, beside, nested]
  cases value.inline? with
  | some text =>
    have joined : name ++ ": " ++ text = name ++ ":" ++ (" " ++ text) := by
      rw [← String.toList_inj]
      simp
    simp [joined]
  | none => simp

theorem beside_inj {a b : Block} (same : a.beside = b.beside) : a.inline? = b.inline? := by
  unfold beside at same
  cases shown : a.inline? with
  | some text =>
    cases seen : b.inline? with
    | some words =>
      rw [shown, seen] at same
      rw [(String.append_right_inj " ").mp same]
    | none => simp [shown, seen] at same
  | none =>
    cases seen : b.inline? with
    | some words => simp [shown, seen] at same
    | none => rfl

theorem first_line : ∀ (b : Block) (indent : Nat), b.Tidy →
    ∃ text rest, lines indent b = ⟨indent, text⟩ :: rest ∧ Yaml.opening text = b.opening
  | leaf written, indent, tidy => ⟨written, [], rfl, opening_scalar tidy.1⟩
  | list [], indent, _ => ⟨"[]", [], rfl, opening_scalar (by decide)⟩
  | list (item :: items), indent, tidy => by
    obtain ⟨text, rest, first, _⟩ := first_line item (indent + 2) tidy.1
    refine ⟨"- " ++ text, rest ++ itemLines indent items, ?_, opening_item text⟩
    rw [lines, itemLines, first]
    rfl
  | record [], indent, tidy => absurd rfl tidy.1
  | record ((name, value) :: fields), indent, tidy =>
    ⟨_, _, fieldLines_cons indent name value fields, opening_field tidy.2.1 _⟩

theorem itemLines_head {item : Block} (indent : Nat) (items : List Block) (tidy : item.Tidy) :
    ∃ text rest, lines (indent + 2) item = ⟨indent + 2, text⟩ :: rest ∧
      itemLines indent (item :: items) =
        ⟨indent, "- " ++ text⟩ :: (rest ++ itemLines indent items) := by
  obtain ⟨text, rest, first, _⟩ := first_line item (indent + 2) tidy
  refine ⟨text, rest, first, ?_⟩
  rw [itemLines, first]
  rfl

-- What follows a block at some indentation starts further left.
def Outside (indent : Nat) (later : List Line) : Prop := ∀ l ∈ later.head?, l.indent < indent

theorem Outside.absurd {later rest : List Line} (outside : Outside indent later)
    (starts : later = ⟨indent, text⟩ :: rest) : False := by
  have left := outside ⟨indent, text⟩ (by simp [starts])
  exact Nat.lt_irrefl _ left

theorem Outside.deeper {later : List Line} (outside : Outside indent later) :
    Outside (indent + 2) later :=
  fun l first => Nat.lt_add_right 2 (outside l first)

theorem outside_cons (indent : Nat) (text : String) (rest : List Line) :
    Outside (indent + 2) (⟨indent, text⟩ :: rest) := by
  intro l first
  cases first
  exact Nat.lt_add_of_pos_right (by decide)

theorem itemLines_outside {items : List Block} {later : List Line} (tidy : AllTidy items)
    (outside : Outside indent later) : Outside (indent + 2) (itemLines indent items ++ later) := by
  cases items with
  | nil => exact outside.deeper
  | cons item items =>
    obtain ⟨text, rest, _, first⟩ := itemLines_head indent items tidy.1
    rw [first]
    exact outside_cons indent _ _

theorem fieldLines_outside {later : List Line} (outside : Outside indent later) :
    Outside (indent + 2) (fieldLines indent fields ++ later) := by
  rcases fields with _ | ⟨⟨name, value⟩, fields⟩
  · exact outside.deeper
  · rw [fieldLines_cons]
    exact outside_cons indent _ _

theorem inline?_inj {a b : Block} (tidy : a.Tidy) (neat : b.Tidy) (shown : a.inline? = some text)
    (seen : b.inline? = some text) : a = b := by
  rcases a with written | ⟨_ | ⟨item, items⟩⟩ | fields <;> cases shown
  · rcases b with written | ⟨_ | ⟨item, items⟩⟩ | fields <;> cases seen
    · rfl
    · exact absurd rfl tidy.2
  · rcases b with written | ⟨_ | ⟨item, items⟩⟩ | fields <;> cases seen
    · exact absurd rfl neat.2
    · rfl

section Reading

variable {a b : Block} {later others : List Line}

theorem lines_opening (tidy : a.Tidy) (neat : b.Tidy)
    (same : lines indent a ++ later = lines indent b ++ others) : b.opening = a.opening := by
  obtain ⟨text, rest, first, opens⟩ := first_line a indent tidy
  obtain ⟨words, more, second, starts⟩ := first_line b indent neat
  rw [first, second] at same
  rw [← opens, ← starts, (Line.mk.inj (List.cons.inj same).1).2]

theorem scalar_line (indent : Nat) (opens : b.opening = .scalar) :
    ∃ text, lines indent b = [⟨indent, text⟩] ∧ b.inline? = some text := by
  rcases b with written | ⟨_ | ⟨item, items⟩⟩ | fields
  · exact ⟨written, rfl, rfl⟩
  · exact ⟨"[]", rfl, rfl⟩
  · cases opens
  · cases opens

theorem scalar_inj (tidy : a.Tidy) (neat : b.Tidy) (scalar : a.opening = .scalar)
    (same : lines indent a ++ later = lines indent b ++ others) : a = b ∧ later = others := by
  obtain ⟨text, first, shown⟩ := scalar_line indent scalar
  obtain ⟨words, second, seen⟩ := scalar_line indent ((lines_opening tidy neat same).trans scalar)
  rw [first, second] at same
  obtain ⟨head, behind⟩ := List.cons.inj same
  obtain ⟨_, rfl⟩ := Line.mk.inj head
  exact ⟨inline?_inj tidy neat shown seen, behind⟩

theorem item_list (opens : b.opening = .item) : ∃ item items, b = list (item :: items) := by
  rcases b with written | ⟨_ | ⟨item, items⟩⟩ | fields
  · cases opens
  · cases opens
  · exact ⟨item, items, rfl⟩
  · cases opens

theorem field_record (opens : b.opening = .field) : ∃ fields, b = record fields := by
  rcases b with written | ⟨_ | ⟨item, items⟩⟩ | fields
  · cases opens
  · cases opens
  · cases opens
  · exact ⟨fields, rfl⟩

end Reading

-- The lines of a block determine it, and with it where the lines behind it start: they are
-- further left. The first line says which of the cases applies.
mutual
theorem lines_inj : ∀ (a b : Block) (indent : Nat) (later others : List Line), a.Tidy → b.Tidy →
    Outside indent later → Outside indent others →
    lines indent a ++ later = lines indent b ++ others → a = b ∧ later = others
  | leaf _, _, _, _, _, tidy, neat, _, _, same => scalar_inj tidy neat rfl same
  | list [], _, _, _, _, tidy, neat, _, _, same => scalar_inj tidy neat rfl same
  | list (item :: items), _, indent, later, others, tidy, neat, outside, beyond, same => by
    obtain ⟨part, parts, rfl⟩ := item_list (lines_opening tidy neat same)
    obtain ⟨equal, rest⟩ := itemLines_inj (item :: items) (part :: parts) indent later others tidy
      neat outside beyond same
    exact ⟨by rw [equal], rest⟩
  | record fields, _, indent, later, others, tidy, neat, outside, beyond, same => by
    obtain ⟨entries, rfl⟩ := field_record (lines_opening tidy neat same)
    obtain ⟨equal, rest⟩ := fieldLines_inj fields entries indent later others tidy.2 neat.2 outside
      beyond same
    exact ⟨by rw [equal], rest⟩

theorem itemLines_inj : ∀ (items parts : List Block) (indent : Nat) (later others : List Line),
    AllTidy items → AllTidy parts → Outside indent later → Outside indent others →
    itemLines indent items ++ later = itemLines indent parts ++ others →
      items = parts ∧ later = others
  | [], [], _, _, _, _, _, _, _, same => ⟨rfl, same⟩
  | [], part :: parts, indent, _, _, _, neat, outside, _, same => by
    obtain ⟨_, _, _, first⟩ := itemLines_head indent parts neat.1
    rw [first] at same
    exact (outside.absurd same).elim
  | item :: items, [], indent, _, _, tidy, _, _, beyond, same => by
    obtain ⟨_, _, _, first⟩ := itemLines_head indent items tidy.1
    rw [first] at same
    exact (beyond.absurd same.symm).elim
  | item :: items, part :: parts, indent, later, others, tidy, neat, outside, beyond, same => by
    obtain ⟨text, rest, first, dash⟩ := itemLines_head indent items tidy.1
    obtain ⟨words, more, second, bar⟩ := itemLines_head indent parts neat.1
    rw [dash, bar] at same
    obtain ⟨head, behind⟩ := List.cons.inj same
    have texts : text = words := (String.append_right_inj "- ").mp (Line.mk.inj head).2
    have whole : lines (indent + 2) item ++ (itemLines indent items ++ later) =
        lines (indent + 2) part ++ (itemLines indent parts ++ others) := by
      rw [first, second, texts]
      simpa using behind
    obtain ⟨rfl, remaining⟩ := lines_inj item part (indent + 2) _ _ tidy.1 neat.1
      (itemLines_outside tidy.2 outside) (itemLines_outside neat.2 beyond) whole
    obtain ⟨rfl, ends⟩ := itemLines_inj items parts indent later others tidy.2 neat.2 outside beyond
      remaining
    exact ⟨rfl, ends⟩

theorem fieldLines_inj : ∀ (fields entries : List (String × Block)) (indent : Nat)
    (later others : List Line), FieldsTidy fields → FieldsTidy entries → Outside indent later →
    Outside indent others → fieldLines indent fields ++ later = fieldLines indent entries ++ others →
      fields = entries ∧ later = others
  | [], [], _, _, _, _, _, _, _, same => ⟨rfl, same⟩
  | [], (key, entry) :: entries, _, _, _, _, _, outside, _, same => by
    rw [fieldLines_cons] at same
    exact (outside.absurd same).elim
  | (name, value) :: fields, [], _, _, _, _, _, _, beyond, same => by
    rw [fieldLines_cons] at same
    exact (beyond.absurd same.symm).elim
  | (name, value) :: fields, (key, entry) :: entries, indent, later, others, tidy, neat, outside,
      beyond, same => by
    rw [fieldLines_cons, fieldLines_cons, List.cons_append, List.cons_append, List.append_assoc,
      List.append_assoc] at same
    obtain ⟨head, behind⟩ := List.cons.inj same
    obtain ⟨rfl, texts⟩ := field_inj tidy.1 neat.1 (Line.mk.inj head).2
    have alike := beside_inj texts
    unfold nested at behind
    rw [← alike] at behind
    have both : value = entry ∧ fieldLines indent fields ++ later =
        fieldLines indent entries ++ others := by
      cases shown : value.inline? with
      | some text =>
        rw [shown] at alike behind
        exact ⟨inline?_inj tidy.2.1 neat.2.1 shown alike.symm, behind⟩
      | none =>
        rw [shown] at behind
        exact lines_inj value entry (indent + 2) _ _ tidy.2.1 neat.2.1 (fieldLines_outside outside)
          (fieldLines_outside beyond) behind
    obtain ⟨rfl, remaining⟩ := both
    obtain ⟨rfl, rest⟩ := fieldLines_inj fields entries indent later others tidy.2.2 neat.2.2
      outside beyond remaining
    exact ⟨rfl, rest⟩
end

end Lines

end Block

structure Line.Tidy (l : Line) : Prop where
  inset : ∀ c ∈ l.text.toList.head?, c ≠ ' '
  whole : '\n' ∉ l.text.toList

theorem toList_blanks (n : Nat) : ("".pushn ' ' n).toList = List.replicate n ' ' := by
  rw [String.pushn_eq_repeat_push]
  induction n with
  | zero => rfl
  | succ n ih => rw [Nat.repeat, String.toList_push, ih, List.replicate_succ']

theorem Line.toList_render (l : Line) :
    l.render.toList = (List.replicate l.indent ' ' ++ l.text.toList) ++ ['\n'] := by
  simp [Line.render, toList_blanks]

theorem blanks_inj {n m : Nat} {one two : List Char} (first : ∀ c ∈ one.head?, c ≠ ' ')
    (second : ∀ c ∈ two.head?, c ≠ ' ')
    (same : List.replicate n ' ' ++ one = List.replicate m ' ' ++ two) : n = m ∧ one = two := by
  induction n generalizing m with
  | zero =>
    cases m with
    | zero => exact ⟨rfl, same⟩
    | succ m =>
      have blank : one.head? = some ' ' := by
        simpa [List.replicate_succ] using congrArg List.head? same
      exact absurd rfl (first ' ' blank)
  | succ n ih =>
    cases m with
    | zero =>
      have blank : two.head? = some ' ' := by
        simpa [List.replicate_succ] using congrArg List.head? same.symm
      exact absurd rfl (second ' ' blank)
    | succ m =>
      obtain ⟨rfl, texts⟩ := ih (m := m) (by simpa [List.replicate_succ] using same)
      exact ⟨rfl, texts⟩

namespace Line.Tidy

variable {l m : Line} {indent : Nat} {text : String}

theorem free (tidy : l.Tidy) : '\n' ∉ List.replicate l.indent ' ' ++ l.text.toList := by
  simp [tidy.whole]

theorem line_inj (tidy : l.Tidy) (neat : m.Tidy)
    (same : List.replicate l.indent ' ' ++ l.text.toList =
      List.replicate m.indent ' ' ++ m.text.toList) : l = m := by
  obtain ⟨indent, text⟩ := l
  obtain ⟨left, words⟩ := m
  obtain ⟨rfl, texts⟩ := blanks_inj tidy.inset neat.inset same
  obtain rfl : text = words := String.toList_inj.mp texts
  rfl

theorem ofUnbroken (unbroken : Unbroken text) : Tidy ⟨indent, text⟩ where
  inset := fun c first => (unbroken.2 c (List.mem_of_head? first)).1
  whole := unbroken.whole

theorem ofItem (tidy : Tidy ⟨indent, text⟩) (left : Nat) : Tidy ⟨left, "- " ++ text⟩ where
  inset := by simp
  whole := by simpa using tidy.whole

theorem ofField {words : String} (unbroken : Unbroken text) (whole : '\n' ∉ words.toList) :
    Tidy ⟨indent, text ++ ":" ++ words⟩ where
  inset := by
    obtain ⟨c, rest, chars⟩ := List.exists_cons_of_ne_nil unbroken.1
    have clear := (unbroken.2 c (by simp [chars])).1
    simpa [chars] using clear
  whole := by simpa using ⟨unbroken.whole, whole⟩

end Line.Tidy

theorem join_inj {ls others : List Line} (tidy : ∀ l ∈ ls, l.Tidy) (neat : ∀ l ∈ others, l.Tidy)
    (same : ls.flatMap (·.render.toList) = others.flatMap (·.render.toList)) : ls = others := by
  induction ls generalizing others with
  | nil =>
    cases others with
    | nil => rfl
    | cons m others => simp [Line.toList_render] at same
  | cons l ls ih =>
    cases others with
    | nil => simp [Line.toList_render] at same
    | cons m others =>
      obtain ⟨first, later⟩ := List.forall_mem_cons.mp tidy
      obtain ⟨second, behind⟩ := List.forall_mem_cons.mp neat
      rw [List.flatMap_cons, List.flatMap_cons, Line.toList_render, Line.toList_render,
        ← List.append_cons, ← List.append_cons] at same
      obtain ⟨heads, rest⟩ := split_inj first.free second.free same
      rw [first.line_inj second heads, ih later behind rest]

namespace Block

theorem beside_whole {value : Block} (tidy : value.Tidy) : '\n' ∉ value.beside.toList := by
  rcases value with written | ⟨_ | ⟨item, items⟩⟩ | fields
  · simpa [beside, inline?] using tidy.1.whole
  · decide
  · simp [beside, inline?]
  · simp [beside, inline?]

mutual
theorem lines_tidy : ∀ (b : Block) (indent : Nat), b.Tidy → ∀ l ∈ lines indent b, l.Tidy
  | leaf _, _, tidy, _, member => by
    rw [List.mem_singleton.mp member]
    exact .ofUnbroken tidy.1
  | list [], _, _, _, member => by
    rw [List.mem_singleton.mp member]
    exact .ofUnbroken (by decide)
  | list (item :: items), indent, tidy, l, member =>
    itemLines_tidy (item :: items) indent tidy l member
  | record fields, indent, tidy, l, member => fieldLines_tidy fields indent tidy.2 l member

theorem itemLines_tidy : ∀ (items : List Block) (indent : Nat), AllTidy items →
    ∀ l ∈ itemLines indent items, l.Tidy
  | [], _, _, _, member => nomatch member
  | item :: items, indent, tidy, l, member => by
    have inside := lines_tidy item (indent + 2) tidy.1
    obtain ⟨text, rest, first, dash⟩ := itemLines_head indent items tidy.1
    rw [first] at inside
    obtain ⟨head, later⟩ := List.forall_mem_cons.mp inside
    rw [dash, List.mem_cons, List.mem_append] at member
    rcases member with rfl | member | member
    · exact head.ofItem indent
    · exact later l member
    · exact itemLines_tidy items indent tidy.2 l member

theorem fieldLines_tidy : ∀ (fields : List (String × Block)) (indent : Nat), FieldsTidy fields →
    ∀ l ∈ fieldLines indent fields, l.Tidy
  | [], _, _, _, member => nomatch member
  | (name, value) :: fields, indent, tidy, l, member => by
    rw [fieldLines_cons, List.mem_cons, List.mem_append] at member
    rcases member with rfl | member | member
    · exact .ofField tidy.1 (beside_whole tidy.2.1)
    · unfold nested at member
      split at member
      · cases member
      · exact lines_tidy value (indent + 2) tidy.2.1 l member
    · exact fieldLines_tidy fields indent tidy.2.2 l member
end

theorem render_inj {a b : Block} (tidy : a.Tidy) (neat : b.Tidy) (same : a.render = b.render) :
    a = b := by
  have chars : (lines 0 a).flatMap (·.render.toList) = (lines 0 b).flatMap (·.render.toList) := by
    simpa [render, String.toList_join, List.flatMap_map] using congrArg String.toList same
  have alike := join_inj (lines_tidy a 0 tidy) (lines_tidy b 0 neat) chars
  obtain ⟨equal, _⟩ := lines_inj a b 0 [] [] tidy neat nofun nofun (by rw [alike])
  exact equal

end Block

end Minilang.Yaml
