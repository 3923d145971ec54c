import Minilang.Proofs.BlockText
import Minilang.Proofs.RunFailure
import Minilang.Tree.Dump

namespace Minilang

namespace Yaml

-- Characters that quotes leave alone and that shape no document.
def reserved : List Char := ['"', '\'', '\\', ':', '[']

def isBare (c : Char) : Bool := 0x21 ≤ c.toNat && c.toNat ≤ 0x7e && !reserved.contains c

theorem isBare_iff {c : Char} :
    isBare c ↔ (0x21 ≤ c.toNat ∧ c.toNat ≤ 0x7e) ∧ c ∉ reserved := by
  simp [isBare]

theorem isBare_ofClass {p : Char → Bool} {c : Char} (apart : reserved.any p = false)
    (bounds : 0x21 ≤ c.toNat ∧ c.toNat ≤ 0x7e) (inside : p c) : isBare c := by
  rw [isBare_iff]
  refine ⟨bounds, ?_⟩
  intro held
  exact List.any_eq_false.mp apart c held inside

def Bare (text : String) : Prop := text.toList ≠ [] ∧ ∀ c ∈ text.toList, isBare c

instance (text : String) : Decidable (Bare text) :=
  decidable_of_iff (text.toList ≠ [] ∧ text.toList.all isBare) (by simp [Bare])

section Written

variable {text words : String}

theorem escaped_bare {c : Char} (bare : isBare c) : escaped c = [c] := by
  simp only [isBare_iff, reserved, List.mem_cons, not_or] at bare
  obtain ⟨⟨low, high⟩, double, _, slash, _⟩ := bare
  have shown : isShown c = true := by
    simp only [isShown, Bool.or_eq_true, Bool.and_eq_true, decide_eq_true_eq]
    exact .inl (.inr ⟨Nat.le_of_lt low, high⟩)
  have whole : isBreak c = false := by
    have line : c ≠ '\n' ∧ c ≠ '\r' := by
      constructor <;> intro same <;> subst same <;> exact absurd low (by decide)
    have codes : c.toNat ≠ 0x85 ∧ c.toNat ≠ 0x2028 ∧ c.toNat ≠ 0x2029 := by omega
    simp [isBreak, line, codes]
  simp [escaped, shown, whole, double, slash]

theorem doubleQuoted_bare (bare : Bare text) :
    (doubleQuoted text.toList).toList = ['"'] ++ text.toList ++ ['"'] := by
  have same : text.toList.flatMap escaped = text.toList := by
    rw [List.flatMap_congr fun c member => escaped_bare (bare.2 c member), List.flatMap_singleton']
  simp [doubleQuoted, same]

theorem singleQuoted_bare (bare : Bare text) :
    (singleQuoted text.toList).toList = ['\''] ++ text.toList ++ ['\''] := by
  have once : ∀ c ∈ text.toList, (if c == '\'' then [c, c] else [c]) = [c] := by
    intro c member
    apply if_neg
    intro quote
    rw [beq_iff_eq.mp quote] at member
    exact absurd (bare.2 _ member) (by decide)
  have same : text.toList.flatMap (fun c => if c == '\'' then [c, c] else [c]) = text.toList := by
    rw [List.flatMap_congr once, List.flatMap_singleton']
  rw [singleQuoted, same]
  simp

def isQuote (c : Char) : Bool := c == '"' || c == '\''

def quoteMarks : List (List Char) := [[], ['"'], ['\'']]

theorem toList_written (bare : Bare text) :
    ∃ mark ∈ quoteMarks, (written text).toList = mark ++ text.toList ++ mark := by
  unfold written
  dsimp only
  split
  · exact ⟨['"'], by simp [quoteMarks], doubleQuoted_bare bare⟩
  · split
    · exact ⟨['"'], by simp [quoteMarks], doubleQuoted_bare bare⟩
    · split
      · exact ⟨[], by simp [quoteMarks], by simp⟩
      · exact ⟨['\''], by simp [quoteMarks], singleQuoted_bare bare⟩

theorem written_inj (bare : Bare text) (plain : Bare words) (same : written text = written words) :
    text = words := by
  have bareChars : ∀ {shown}, Bare shown → (written shown).toList.filter isBare = shown.toList := by
    intro shown known
    obtain ⟨mark, member, chars⟩ := toList_written known
    have gone : ∀ mark ∈ quoteMarks, mark.filter isBare = [] := by decide
    rw [chars, List.filter_append, List.filter_append, gone mark member,
      List.filter_eq_self.mpr known.2]
    simp
  rw [← String.toList_inj, ← bareChars bare, same, bareChars plain]

theorem leaf_tidy (filled : text.toList ≠ [])
    (inside : ∀ c ∈ text.toList, isBare c ∨ isQuote c) : (Block.leaf text).Tidy := by
  have shaping : [' ', ':', '\n', '['].any (fun c => isBare c || isQuote c) = false := by decide
  have clear : ∀ c ∈ [' ', ':', '\n', '['], c ∉ text.toList := by
    intro c known held
    exact List.any_eq_false.mp shaping c known (by simpa using inside c held)
  refine ⟨⟨filled, ?_⟩, ?_⟩
  · intro c held
    refine ⟨?_, ?_, ?_⟩ <;> intro same <;> subst same <;> exact clear _ (by simp) held
  · intro same
    apply clear '[' (by simp)
    simp [same]

theorem Bare.tidy (bare : Bare text) : (Block.leaf text).Tidy :=
  leaf_tidy bare.1 fun c held => .inl (bare.2 c held)

theorem Bare.written_tidy (bare : Bare text) : (Block.leaf (written text)).Tidy := by
  obtain ⟨mark, member, chars⟩ := toList_written bare
  have marks : ∀ mark ∈ quoteMarks, mark.all isQuote := by decide
  have quotes := List.all_eq_true.mp (marks mark member)
  apply leaf_tidy
  · simp [chars, bare.1]
  · intro c held
    rw [chars, List.mem_append, List.mem_append] at held
    rcases held with (first | inner) | last
    · exact .inr (quotes c first)
    · exact .inl (bare.2 c inner)
    · exact .inr (quotes c last)

end Written

end Yaml

open Yaml (Block Bare isBare)

theorem IsNumeral.bare (numeral : IsNumeral text) : Bare text := by
  refine ⟨numeral.1, ?_⟩
  intro c held
  have digit := numeral.2 c held
  have bounds := digit_bounds digit
  exact Yaml.isBare_ofClass (by decide) (by omega) digit

theorem IsName.bare (known : IsName name) : Bare name := by
  refine ⟨known.1.1, ?_⟩
  intro c held
  have word := known.1.2.1 c held
  have bounds := word_bounds word
  exact Yaml.isBare_ofClass (by decide) (by omega) word

theorem operator_bare (known : operator ∈ binaryOperators) : Bare operator := by
  have all : ∀ operator ∈ binaryOperators, Bare operator := by decide
  exact all operator known

theorem decimal_natural {v : Int} (least : 0 ≤ v) : decimal v = v.toNat.repr := by
  obtain ⟨n, rfl⟩ := Int.eq_ofNat_of_zero_le least
  rfl

theorem decimal_bare {v : Int} (least : 0 ≤ v) : Bare (decimal v) := by
  rw [decimal_natural least]
  exact (numeral_repr v.toNat).1.bare

theorem decimal_inj {v w : Int} (least : 0 ≤ v) (natural : 0 ≤ w) (same : decimal v = decimal w) :
    v = w := by
  rw [decimal_natural least, decimal_natural natural] at same
  have values := congrArg numeralValue same
  rw [(numeral_repr v.toNat).2, (numeral_repr w.toNat).2] at values
  omega

namespace Dump

theorem node_tidy (kind : NodeKind) {fields : List (String × Block)}
    (tidy : Block.FieldsTidy fields) : (node kind fields).Tidy := by
  have known : Bare kind.text := by cases kind <;> decide
  exact ⟨by simp, by decide, known.tidy, tidy⟩

theorem node_inj {kind sort : NodeKind} {fields entries : List (String × Block)}
    (same : node kind fields = node sort entries) : kind = sort ∧ fields = entries := by
  simp only [node, Block.record.injEq, List.cons.injEq, Prod.mk.injEq, Block.leaf.injEq, true_and]
    at same
  refine ⟨?_, same.2⟩
  cases kind <;> cases sort <;> simp [NodeKind.text] at same ⊢

theorem single_inj {kind sort : NodeKind} {name key : String} {a b : Block}
    (same : node kind [(name, a)] = node sort [(key, b)]) : a = b := by
  have fields := (node_inj same).2
  simp only [List.cons.injEq, Prod.mk.injEq] at fields
  exact fields.1.2

theorem pair_inj {kind sort : NodeKind} {name key next other : String} {a b c d : Block}
    (same : node kind [(name, a), (next, b)] = node sort [(key, c), (other, d)]) :
    a = c ∧ b = d := by
  have fields := (node_inj same).2
  simp only [List.cons.injEq, Prod.mk.injEq] at fields
  exact ⟨fields.1.2, fields.2.1.2⟩

theorem text_inj (bare : Bare value) (plain : Bare word) (same : text value = text word) :
    value = word :=
  Yaml.written_inj bare plain (Block.leaf.inj same)

theorem ident_tidy (known : IsName name) : (ident name).Tidy :=
  node_tidy .ident ⟨by decide, known.bare.written_tidy, trivial⟩

theorem ident_inj (known : IsName name) (other : IsName key) (same : ident name = ident key) :
    name = key :=
  text_inj known.bare other.bare (single_inj same)

end Dump

namespace Expr

theorem Plain.tidy {e : Expr} (plain : e.Plain) : e.block.Tidy := by
  induction e with
  | missing | assign => cases plain
  | number origin value =>
    obtain ⟨v, rfl, least⟩ := plain
    exact Dump.node_tidy .number ⟨by decide, (decimal_bare least).tidy, trivial⟩
  | ident origin name => exact Dump.ident_tidy plain
  | unary origin operator operand ih =>
    obtain ⟨rfl, inner⟩ := plain
    have sign : Bare "-" := by decide
    exact Dump.node_tidy .unary ⟨by decide, sign.written_tidy, by decide, ih inner, trivial⟩
  | binary origin operator left right first second =>
    obtain ⟨known, before, after⟩ := plain
    exact Dump.node_tidy .binary ⟨by decide, (operator_bare known).written_tidy, by decide,
      first before, by decide, second after, trivial⟩

theorem Readable.tidy {e : Expr} (readable : e.Readable) : e.block.Tidy := by
  cases e with
  | assign origin target value =>
    obtain ⟨⟨found, rfl, known⟩, plain⟩ := readable
    exact Dump.node_tidy .assign ⟨by decide, Dump.ident_tidy known, by decide, plain.tidy, trivial⟩
  | missing | number | ident | unary | binary => exact Plain.tidy readable

end Expr

mutual
theorem Stmt.Readable.tidy : ∀ s : Stmt, s.Readable → s.block.Tidy
  | .expr _, readable => Expr.Readable.tidy readable
  | .branch _ _ body, readable =>
    Dump.node_tidy .branch ⟨by decide, readable.1.tidy, by decide,
      Stmt.AllReadable.tidy body readable.2, trivial⟩
  | .loop _ _ body, readable =>
    Dump.node_tidy .loop ⟨by decide, readable.1.tidy, by decide,
      Stmt.AllReadable.tidy body readable.2, trivial⟩
  | .print _ _, readable =>
    Dump.node_tidy .print ⟨by decide, Expr.Readable.tidy readable, trivial⟩

theorem Stmt.AllReadable.tidy : ∀ body, Stmt.AllReadable body → Block.AllTidy (blocks body)
  | [], _ => trivial
  | s :: body, readable =>
    ⟨Stmt.Readable.tidy s readable.1, Stmt.AllReadable.tidy body readable.2⟩
end

-- Blocks tell trees apart up to the tokens they came from: the kind of a node says which
-- fields follow, and their texts give back what they were written from.
namespace Expr

theorem Plain.block_inj {a b : Expr} (plain : a.Plain) (other : b.Plain)
    (same : a.block = b.block) : a.erase = b.erase := by
  induction a generalizing b with
  | missing | assign => cases plain
  | number origin value =>
    cases b with
    | missing | assign => cases other
    | ident | unary | binary => cases (Dump.node_inj same).1
    | number place number =>
      obtain ⟨v, rfl, least⟩ := plain
      obtain ⟨w, rfl, natural⟩ := other
      have values := Block.leaf.inj (Dump.single_inj same)
      rw [decimal_inj least natural values]
      rfl
  | ident origin name =>
    cases b with
    | missing | assign => cases other
    | number | unary | binary => cases (Dump.node_inj same).1
    | ident place key =>
      rw [Dump.ident_inj plain other same]
      rfl
  | unary origin operator operand ih =>
    cases b with
    | missing | assign => cases other
    | number | ident | binary => cases (Dump.node_inj same).1
    | unary place sign inner =>
      have operands := ih plain.2 other.2 (Dump.pair_inj same).2
      rw [plain.1, other.1]
      simp only [erase, relabel] at operands ⊢
      rw [operands]
  | binary origin operator left right first second =>
    cases b with
    | missing | assign => cases other
    | number | ident | unary => cases (Dump.node_inj same).1
    | binary place sign before after =>
      obtain ⟨known, leftPlain, rightPlain⟩ := plain
      obtain ⟨valid, beforePlain, afterPlain⟩ := other
      have fields := (Dump.node_inj same).2
      simp only [List.cons.injEq, Prod.mk.injEq, true_and, and_true] at fields
      obtain ⟨operators, lefts, rights⟩ := fields
      have ones := first leftPlain beforePlain lefts
      have others := second rightPlain afterPlain rights
      rw [Dump.text_inj (operator_bare known) (operator_bare valid) operators]
      simp only [erase, relabel] at ones others ⊢
      rw [ones, others]

theorem Plain.kind {e : Expr} {kind : NodeKind} {fields : List (String × Block)} (plain : e.Plain)
    (same : e.block = Dump.node kind fields) : kind ∈ [.number, .ident, .unary, .binary] := by
  cases e with
  | missing | assign => cases plain
  | number | ident | unary | binary =>
    rw [← (Dump.node_inj same).1]
    decide

theorem Readable.cases {e : Expr} (readable : e.Readable) : e.Plain ∨ ∃ origin target value,
    e = .assign origin (some target) value ∧ IsName target.name ∧ value.Plain := by
  cases e with
  | assign origin target value =>
    obtain ⟨⟨found, rfl, known⟩, plain⟩ := readable
    exact .inr ⟨origin, found, value, rfl, known, plain⟩
  | missing | number | ident | unary | binary => exact .inl readable

theorem Readable.kind {e : Expr} {kind : NodeKind} {fields : List (String × Block)}
    (readable : e.Readable) (same : e.block = Dump.node kind fields) :
    kind ∈ [.assign, .number, .ident, .unary, .binary] := by
  rcases readable.cases with plain | ⟨origin, target, value, rfl, _⟩
  · exact List.mem_cons_of_mem _ (plain.kind same)
  · rw [← (Dump.node_inj same).1]
    decide

theorem Readable.block_inj {a b : Expr} (readable : a.Readable) (other : b.Readable)
    (same : a.block = b.block) : a.erase = b.erase := by
  rcases readable.cases with plain | ⟨origin, target, value, rfl, known, plain⟩
  · rcases other.cases with simple | ⟨place, bound, result, rfl, _⟩
    · exact plain.block_inj simple same
    · exact absurd (plain.kind same) (by decide)
  · rcases other.cases with simple | ⟨place, bound, result, rfl, valid, simple⟩
    · exact absurd (simple.kind same.symm) (by decide)
    · obtain ⟨targets, results⟩ := Dump.pair_inj same
      have values := plain.block_inj simple results
      have names := Dump.ident_inj known valid targets
      simp only [erase, relabel, Option.map] at values ⊢
      rw [values, names]

end Expr

mutual
theorem Stmt.block_inj : ∀ a b : Stmt, a.Readable → b.Readable → a.block = b.block →
    a.erase = b.erase
  | .expr e, b, readable, other, same => by
    cases b with
    | branch | loop | print => exact absurd (Expr.Readable.kind readable same) (by decide)
    | expr => exact congrArg Stmt.expr (Expr.Readable.block_inj readable other same)
  | .branch _ condition body, b, readable, other, same => by
    cases b with
    | expr => exact absurd (Expr.Readable.kind other same.symm) (by decide)
    | loop | print => cases (Dump.node_inj same).1
    | branch _ test inner =>
      obtain ⟨conditions, bodies⟩ := Dump.pair_inj same
      have guards := readable.1.block_inj other.1 conditions
      have inside := Stmt.blocks_inj body inner readable.2 other.2 (Block.list.inj bodies)
      exact congrArg₂ (Stmt.branch default) guards inside
  | .loop _ condition body, b, readable, other, same => by
    cases b with
    | expr => exact absurd (Expr.Readable.kind other same.symm) (by decide)
    | branch | print => cases (Dump.node_inj same).1
    | loop _ test inner =>
      obtain ⟨conditions, bodies⟩ := Dump.pair_inj same
      have guards := readable.1.block_inj other.1 conditions
      have inside := Stmt.blocks_inj body inner readable.2 other.2 (Block.list.inj bodies)
      exact congrArg₂ (Stmt.loop default) guards inside
  | .print _ e, b, readable, other, same => by
    cases b with
    | expr => exact absurd (Expr.Readable.kind other same.symm) (by decide)
    | branch | loop => cases (Dump.node_inj same).1
    | print _ shown =>
      have operands := Expr.Readable.block_inj readable other (Dump.single_inj same)
      exact congrArg (Stmt.print default) operands

theorem Stmt.blocks_inj : ∀ body others : List Stmt, Stmt.AllReadable body →
    Stmt.AllReadable others → blocks body = blocks others → Stmt.eraseAll body = Stmt.eraseAll others
  | [], [], _, _, _ => rfl
  | s :: body, t :: others, readable, legible, same => by
    obtain ⟨heads, tails⟩ := List.cons.inj same
    have first := Stmt.block_inj s t readable.1 legible.1 heads
    have later := Stmt.blocks_inj body others readable.2 legible.2 tails
    exact congrArg₂ List.cons first later
end

section Origins

variable {g : Token → Token}

@[simp]
theorem Expr.block_relabel (e : Expr) : (e.relabel g).block = e.block := by
  induction e with
  | missing | number | ident => rfl
  | unary origin operator operand ih => simp [relabel, block, ih]
  | binary origin operator left right first second => simp [relabel, block, first, second]
  | assign origin target value ih => cases target <;> simp [relabel, block, ih]

mutual
@[simp]
theorem Stmt.block_relabel : ∀ s : Stmt, (s.relabel g).block = s.block
  | .expr e => Expr.block_relabel e
  | .branch _ c body => by
    simp [Stmt.relabel, Stmt.block, Stmt.blocks_relabel body]
  | .loop _ c body => by
    simp [Stmt.relabel, Stmt.block, Stmt.blocks_relabel body]
  | .print _ e => by simp [Stmt.relabel, Stmt.block]

@[simp]
theorem Stmt.blocks_relabel : ∀ body, blocks (Stmt.relabelAll g body) = blocks body
  | [] => rfl
  | s :: body => by
    simp [Stmt.relabelAll, blocks, Stmt.block_relabel s, Stmt.blocks_relabel body]
end

end Origins

theorem dump_inj {body others : List Stmt} (readable : Stmt.AllReadable body)
    (legible : Stmt.AllReadable others) (same : dump body = dump others) :
    Stmt.eraseAll body = Stmt.eraseAll others := by
  have tidy : (Block.list (blocks body)).Tidy := Stmt.AllReadable.tidy body readable
  have neat : (Block.list (blocks others)).Tidy := Stmt.AllReadable.tidy others legible
  have lists := Block.list.inj (Block.render_inj tidy neat same)
  exact Stmt.blocks_inj body others readable legible lists

theorem dump_erase (body : List Stmt) : dump (Stmt.eraseAll body) = dump body := by
  rw [dump, Stmt.eraseAll, Stmt.blocks_relabel, dump]

theorem compile_readable (compiled : Program.compile path source = .ok program) :
    Stmt.AllReadable program.statements := by
  unfold Program.compile at compiled
  cases scanned : Token.scan source with
  | error e => simp [scanned] at compiled
  | ok tokens =>
    cases parsed : Parse.program tokens with
    | error e => simp [scanned, parsed] at compiled
    | ok body =>
      simp only [scanned, parsed, Except.ok.injEq] at compiled
      rw [← compiled]
      exact source_readable scanned parsed

theorem dump_determines_tree (path file : String) (source text : List UInt8)
    (first second : Program) (compiled : Program.compile path source = .ok first)
    (read : Program.compile file text = .ok second) :
    dump first.statements = dump second.statements ↔
      Stmt.eraseAll first.statements = Stmt.eraseAll second.statements := by
  constructor
  · exact dump_inj (compile_readable compiled) (compile_readable read)
  · intro same
    rw [← dump_erase, same, dump_erase]

-- The texts if(y){} and if ((y)) {} show one tree, and if(n){} shows another. Both names
-- are words for a truth value and stand between quotes.
theorem dump_determines_tree_names :
    ∃ first second third, Program.compile "p" [105, 102, 40, 121, 41, 123, 125] = .ok first ∧
      Program.compile "q" [105, 102, 32, 40, 40, 121, 41, 41, 32, 123, 125] = .ok second ∧
      Program.compile "p" [105, 102, 40, 110, 41, 123, 125] = .ok third ∧
      dump first.statements = dump second.statements ∧
      dump first.statements ≠ dump third.statements := by
  refine ⟨_, _, _, rfl, rfl, rfl, ?_, ?_⟩
  · apply (dump_determines_tree "p" "q" [105, 102, 40, 121, 41, 123, 125]
      [105, 102, 32, 40, 40, 121, 41, 41, 32, 123, 125] _ _ rfl rfl).mpr
    rfl
  · intro same
    have trees := (dump_determines_tree "p" "p" [105, 102, 40, 121, 41, 123, 125]
      [105, 102, 40, 110, 41, 123, 125] _ _ rfl rfl).mp same
    cases trees

end Minilang
