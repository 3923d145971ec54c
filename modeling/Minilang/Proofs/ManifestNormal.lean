import Mathlib.Data.List.DropRight
import Minilang.Proofs.DecodedRecord
import Minilang.Proofs.PatternExpansion

namespace Minilang

namespace Text

def Tight (text : String) : Prop :=
  (∀ c ∈ text.toList.head?, isBlank c = false) ∧ ∀ c ∈ text.toList.getLast?, isBlank c = false

theorem trimList_eq (chars : List Char) :
    trimList chars = (chars.dropWhile isBlank).rdropWhile isBlank := rfl

theorem trim_tight (text : String) : Tight (trim text) := by
  unfold Tight trim
  rw [String.toList_ofList, trimList_eq]
  constructor
  · intro c first
    -- Whatever the end loses, the first character is still the one that stopped the first pass.
    have begun : (text.toList.dropWhile isBlank).head? = some c := by
      obtain ⟨rest, whole⟩ := List.rdropWhile_prefix isBlank (text.toList.dropWhile isBlank)
      rw [← whole, List.head?_append, first]
      rfl
    have stopped := List.head?_dropWhile_not isBlank text.toList
    rw [begun] at stopped
    exact stopped
  · intro c last
    obtain ⟨some, ends⟩ := List.mem_getLast?_eq_getLast last
    rw [ends]
    exact Bool.eq_false_of_not_eq_true (List.rdropWhile_last_not isBlank _ some)

theorem trim_eq {text : String} (tight : Tight text) : trim text = text := by
  have front : text.toList.dropWhile isBlank = text.toList := by
    cases chars : text.toList with
    | nil => rfl
    | cons c rest =>
      have stops : isBlank c = false := tight.1 c (by rw [chars]; rfl)
      exact List.dropWhile_cons_of_neg (Bool.not_eq_true _ ▸ stops)
  have back : text.toList.rdropWhile isBlank = text.toList := by
    apply List.rdropWhile_eq_self_iff.mpr
    intro some
    rw [tight.2 _ (List.getLast?_eq_some_getLast some)]
    exact Bool.false_ne_true
  unfold trim
  rw [trimList_eq, front, back, String.ofList_toList]

end Text

namespace Yaml

mutual

def Node.noNullLists : Node → Bool
  | .sequence _ tag items => tag != nullTag && noNullItems items
  | .mapping _ _ entries => noNullValues entries
  | _ => true

def Node.noNullItems : List Node → Bool
  | [] => true
  | node :: rest => node.noNullLists && noNullItems rest

def Node.noNullValues : List (Node × Node) → Bool
  | [] => true
  | (_, node) :: rest => node.noNullLists && noNullValues rest

end

def noNullLists (bytes : List UInt8) : Bool :=
  match Document.read? bytes with
  | some (some document) =>
    document.root.noNullLists && document.anchored.all (·.2.noNullLists)
  | _ => true

theorem Node.noNullItems_iff {items : List Node} :
    noNullItems items = true ↔ ∀ node ∈ items, node.noNullLists = true := by
  induction items with
  | nil => simp [noNullItems]
  | cons node rest ih => rw [noNullItems, Bool.and_eq_true, ih, List.forall_mem_cons]

theorem Node.noNullValues_iff {entries : List (Node × Node)} :
    noNullValues entries = true ↔ ∀ entry ∈ entries, entry.2.noNullLists = true := by
  induction entries with
  | nil => simp [noNullValues]
  | cons entry rest ih => rw [noNullValues, Bool.and_eq_true, ih, List.forall_mem_cons]

theorem Node.Within.noNullLists {whole node : Node} (clear : whole.noNullLists = true)
    (inside : Within whole node) : node.noNullLists = true := by
  induction inside with
  | here => exact clear
  | item _ member ih =>
    rw [Node.noNullLists, Bool.and_eq_true] at ih
    exact noNullItems_iff.mp ih.2 _ member
  | value _ member ih =>
    rw [Node.noNullLists] at ih
    exact noNullValues_iff.mp ih _ member

theorem not_holds_nullList {bytes : List UInt8} {document : Document} {row : Nat}
    {nodes : List Node} (clear : noNullLists bytes = true)
    (read : Document.read? bytes = some (some document)) :
    ¬ document.Holds (.sequence row nullTag nodes) := by
  have never : (Node.sequence row nullTag nodes).noNullLists ≠ true := by
    rw [Node.noNullLists, bne_self_eq_false, Bool.false_and]
    exact Bool.false_ne_true
  unfold noNullLists at clear
  rw [read] at clear
  obtain ⟨root, anchored⟩ := (Bool.and_eq_true _ _).mp clear
  intro held
  rcases held with inside | ⟨anchor, target, listed, inside⟩
  · exact never (inside.noNullLists root)
  · exact never (inside.noNullLists (List.all_eq_true.mp anchored _ listed))

namespace Decode

variable {ρ α : Type} {document : Document} {keeps : ρ → Prop} {good : α → Prop}

theorem field_keeps {name : String} {get : ρ → α} {set : ρ → α → ρ} {decoder : Decoder α}
    (decoded : ∀ start node, document.Holds node →
      Yields document (decoder start node) fun result => ∀ value, result = some value → good value)
    (assigned : ∀ record value, keeps record → good value → keeps (set record value)) :
    ∀ record node, keeps record → document.Holds node →
      Yields document ((field name get set decoder).assign record node) keeps := by
  intro record node given held
  refine (entering_yields held (decoded (get record))).bind ?_
  intro result satisfied
  cases result with
  | none => exact yields_pure given
  | some value => exact yields_pure (assigned record value given (satisfied value rfl))

end Decode

end Yaml

namespace Manifest

open Yaml Yaml.Decode

section Patterns

variable {document : Document}

def NoneBlank (texts : List String) : Prop := ∀ text ∈ texts, Text.trim text ≠ ""

theorem noneBlank_nil : NoneBlank [] := by
  intro text member
  cases member

theorem noneBlank_trimmed {text : String} {texts : List String} (rest : NoneBlank texts) :
    NoneBlank (if Text.trim text = "" then texts else Text.trim text :: texts) := by
  split
  · exact rest
  · rename_i there
    intro other member
    rcases List.mem_cons.mp member with rfl | behind
    · rwa [Text.trim_eq (Text.trim_tight text)]
    · exact rest other behind

theorem patternItems_yields (nodes : List Node) :
    Yields document (patternItems nodes) fun result =>
      ∀ texts, result = some texts → NoneBlank texts := by
  induction nodes with
  | nil => exact yields_some noneBlank_nil
  | cons node rest ih =>
    unfold patternItems
    refine .after fun decoded => ?_
    dsimp only
    split
    · refine ih.bind ?_
      intro result satisfied
      cases result with
      | none => exact yields_none
      | some items => exact yields_some (noneBlank_trimmed (satisfied items rfl))
    · exact .after fun _ => yields_none

theorem unlisted_yields {α : Type} {typeName : String} {start : α} {item : Decoder α}
    {before : Option (List α)} {node : Node}
    (unlisted : ∀ row label nodes, node ≠ .sequence row label nodes) :
    Yields document (list typeName start item before node) fun result =>
      result = none ∨ result = some none := by
  unfold list
  split
  · exact absurd rfl (unlisted _ _ _)
  · refine .after fun meaning => ?_
    dsimp only
    split
    · exact yields_pure (.inr rfl)
    · exact .after fun _ => yields_pure (.inl rfl)
  · refine .after fun distinct => ?_
    dsimp only
    split
    · exact .after fun _ => yields_pure (.inl rfl)
    · exact yields_pure (.inl rfl)
  · exact .after fun _ => yields_pure (.inl rfl)

-- Only a sequence that is marked as null brings its items in as they are.
theorem patterns_yield (clear : ∀ row nodes, ¬ document.Holds (.sequence row nullTag nodes))
    (start : List String) (node : Node) (held : document.Holds node) :
    Yields document (patterns start node) fun result =>
      ∀ texts, result = some texts → NoneBlank texts := by
  unfold patterns
  split
  · rename_i marked
    have unlisted : ∀ row label nodes, node ≠ .sequence row label nodes := by
      intro row label nodes same
      subst same
      obtain rfl : label = nullTag := eq_of_beq marked
      exact clear row nodes held
    refine (unlisted_yields unlisted).bind ?_
    intro result satisfied
    rcases satisfied with rfl | rfl
    · exact yields_none
    · exact yields_some noneBlank_nil
  · split
    · exact yields_some (noneBlank_trimmed noneBlank_nil)
    · exact patternItems_yields _
    · exact yields_throw _ _

theorem fields_keep (clear : ∀ row nodes, ¬ document.Holds (.sequence row nullTag nodes)) :
    FieldsKeep document fields fun raw => NoneBlank raw.fixtures := by
  intro field member
  have texts : ∀ start node, document.Holds node → Yields document (string start node) fun result =>
      ∀ value, result = some value → True := by
    intro start node _ d value after _ text _
    trivial
  simp only [fields, List.mem_cons, List.not_mem_nil, or_false] at member
  rcases member with rfl | rfl | rfl | rfl
  · exact field_keeps texts fun _ _ kept _ => kept
  · exact field_keeps texts fun _ _ kept _ => kept
  · exact field_keeps texts fun _ _ kept _ => kept
  · exact field_keeps (patterns_yield clear) fun _ _ _ fine => fine

end Patterns

def written (m : Manifest) : ManifestFields := ⟨m.name, m.main, m.undefined, m.fixtures⟩

structure Normal (m : Manifest) : Prop where
  named : m.name ≠ ""
  name : Text.Tight m.name
  main : Text.Tight m.main
  mode : m.undefined ∈ ["", "error", "zero"]
  fixtures : ∀ pattern ∈ m.fixtures, pattern ≠ "" ∧ Text.Tight pattern

variable {m : Manifest} {raw : ManifestFields} {place : String} {bytes : List UInt8}

theorem ofFields_tight {pattern : String} (member : pattern ∈ (ofFields place raw).fixtures) :
    pattern ≠ "" ∧ Text.Tight pattern := by
  obtain ⟨trimmed, there⟩ := List.mem_filter.mp member
  obtain ⟨text, -, rfl⟩ := List.mem_map.mp trimmed
  exact ⟨of_decide_eq_true there, Text.trim_tight text⟩

theorem issues_clear (clear : m.issues = []) :
    m.name ≠ "" ∧ m.undefined ∈ ["", "error", "zero"] := by
  rw [issues, List.append_eq_nil_iff, List.append_eq_nil_iff] at clear
  obtain ⟨⟨named, mode⟩, -⟩ := clear
  constructor
  · intro empty
    rw [nameIssues, if_pos empty] at named
    exact absurd named (List.cons_ne_nil _ _)
  · unfold undefinedIssues at mode
    split at mode
    · rename_i known
      rcases (Bool.or_eq_true _ _).mp known with empty | label
      · rw [of_decide_eq_true empty]
        exact List.mem_cons_self
      · unfold UndefinedMode.ofLabel? at label
        split at label
        · rename_i strict
          rw [strict]
          decide
        · split at label
          · rename_i zero
            rw [zero]
            decide
          · cases label
    · exact absurd mode (List.cons_ne_nil _ _)

theorem ofFields_normal (accepted : (ofFields place raw).checked = .ok m) : m.Normal := by
  obtain ⟨rfl, clear⟩ := checked_ok accepted
  obtain ⟨named, mode⟩ := issues_clear clear
  exact ⟨named, Text.trim_tight _, Text.trim_tight _, mode, fun _ => ofFields_tight⟩

theorem Normal.lower_trim (normal : m.Normal) : Text.lower (Text.trim m.undefined) = m.undefined := by
  have each : ∀ label ∈ ["", "error", "zero"], Text.lower (Text.trim label) = label := by
    decide +kernel
  exact each _ normal.mode

theorem Normal.trimmed_fixtures (normal : m.Normal) :
    (m.fixtures.map Text.trim).filter (· ≠ "") = m.fixtures := by
  have same : m.fixtures.map Text.trim = m.fixtures := by
    have each : ∀ pattern ∈ m.fixtures, Text.trim pattern = pattern := by
      intro pattern member
      exact Text.trim_eq (normal.fixtures pattern member).2
    rw [List.map_congr_left each, List.map_id']
  rw [same]
  apply List.filter_eq_self.mpr
  intro pattern member
  exact decide_eq_true (normal.fixtures pattern member).1

theorem Normal.ofFields_written (normal : m.Normal) :
    ofFields m.path m.written = { m with listed := !m.fixtures.isEmpty } := by
  unfold ofFields written
  dsimp only
  rw [Text.trim_eq normal.name, Text.trim_eq normal.main, normal.lower_trim, normal.trimmed_fixtures]

theorem Normal.written_checked (normal : m.Normal) (clear : m.issues = []) :
    (ofFields m.path m.written).checked = .ok { m with listed := !m.fixtures.isEmpty } := by
  have same : ({ m with listed := !m.fixtures.isEmpty } : Manifest).issues = m.issues := rfl
  rw [normal.ofFields_written, checked, same, clear]
  rfl

theorem ofFields_listed (shown : NoneBlank raw.fixtures) :
    (ofFields place raw).listed = !(ofFields place raw).fixtures.isEmpty := by
  have all : (ofFields place raw).fixtures = raw.fixtures.map Text.trim := by
    apply List.filter_eq_self.mpr
    intro trimmed member
    obtain ⟨text, there, rfl⟩ := List.mem_map.mp member
    exact decide_eq_true (shown text there)
  rw [all, List.isEmpty_map]
  rfl

theorem ofBytes_listed (read : ofBytes place bytes = .ok m) (clear : noNullLists bytes = true) :
    m.listed = !m.fixtures.isEmpty := by
  obtain ⟨raw, decoded, accepted⟩ := ofBytes_fields read
  obtain ⟨rfl, -⟩ := checked_ok accepted
  have kept : ∀ document, Document.read? bytes = some (some document) →
      FieldsKeep document fields fun raw => NoneBlank raw.fixtures := by
    intro document found
    exact fields_keep fun _ _ => not_holds_nullList clear found
  have shown := decode_keeps kept noneBlank_nil decoded
  exact ofFields_listed shown

theorem unlisted_fixtures (read : ofBytes place bytes = .ok m) (unlisted : m.listed = false) :
    m.fixtures = [] := by
  obtain ⟨raw, -, accepted⟩ := ofBytes_fields read
  obtain ⟨rfl, -⟩ := checked_ok accepted
  have none : raw.fixtures = [] := by simpa [ofFields] using unlisted
  rw [ofFields, none]
  rfl

-- Whatever file a manifest was read from, its texts are trimmed, none that counts is empty, and
-- its own fields written down again pass validation. They give the same manifest, with a list of
-- patterns if and only if there is a pattern, unless a sequence of the file is marked as null.
theorem loaded_manifest_normal (disk : Files Id) (path : String) (m : Manifest)
    (loaded : load disk path = Except.ok m) :
    m.Normal ∧ (m.listed = false → m.fixtures = []) ∧
      (ofFields m.path m.written).checked = .ok { m with listed := !m.fixtures.isEmpty } ∧
      ∀ bytes, disk.contents (Path.absolute disk.workingDirectory path) = Except.ok bytes →
        noNullLists bytes = true →
        (m.listed = false ↔ m.fixtures = []) ∧ (ofFields m.path m.written).checked = .ok m := by
  obtain ⟨bytes, held, read⟩ := load_read loaded
  obtain ⟨raw, -, accepted⟩ := ofBytes_fields read
  have normal := ofFields_normal accepted
  have again := normal.written_checked (checked_ok accepted).2
  refine ⟨normal, unlisted_fixtures read, again, ?_⟩
  intro others same clear
  have listed : m.listed = !m.fixtures.isEmpty := by
    obtain rfl : bytes = others := Except.ok.inj (held.symm.trans same)
    exact ofBytes_listed read clear
  constructor
  · rw [listed, Bool.not_eq_false', List.isEmpty_iff]
  · rw [again, ← listed]

def manifestTree (text : String) : FileTree :=
  .directory [("minilang.yml", .file (Text.bytesOf text))]

def untidyText : String :=
  "name: ' n '\nmain: &entry \"m.ml\\t\"\nundefined: ' ZERO'\nfixtures: ['a*\u3000', *entry, ' ']\n"

theorem loaded_manifest_normal_untidy :
    load ((manifestTree untidyText).files "/") "minilang.yml" =
        Except.ok ⟨"/minilang.yml", "n", "m.ml", "zero", ["a*", "m.ml"], true⟩ ∧
      noNullLists (Text.bytesOf untidyText) = true ∧
      (ofFields "/minilang.yml" ⟨"n", "m.ml", "zero", ["a*", "m.ml"]⟩).checked =
        .ok ⟨"/minilang.yml", "n", "m.ml", "zero", ["a*", "m.ml"], true⟩ := by
  have loaded : load ((manifestTree untidyText).files "/") "minilang.yml" =
      Except.ok ⟨"/minilang.yml", "n", "m.ml", "zero", ["a*", "m.ml"], true⟩ :=
    ok_of_toOption (by decide +kernel)
  have held : ((manifestTree untidyText).files "/").contents (Path.absolute "/" "minilang.yml") =
      Except.ok (Text.bytesOf untidyText) := ok_of_toOption (by decide +kernel)
  have clear : noNullLists (Text.bytesOf untidyText) = true := by decide +kernel
  exact ⟨loaded, clear, ((loaded_manifest_normal _ _ _ loaded).2.2.2 _ held clear).2⟩

def blankListed : Manifest := ⟨"/minilang.yml", "d", "", "", [], true⟩

-- A list that is marked as null keeps its blank items until the manifest is made, so that there
-- is a list, and it has no pattern. Its fields give one without a list.
theorem loaded_manifest_blank_list :
    load ((manifestTree "name: d\nfixtures: !!null [\" \"]\n").files "/") "minilang.yml" =
        Except.ok blankListed ∧
      blankListed.fixtures = [] ∧ blankListed.listed = true ∧
      (ofFields blankListed.path blankListed.written).checked ≠ .ok blankListed := by
  refine ⟨ok_of_toOption (by decide +kernel), rfl, rfl, ?_⟩
  intro same
  have listed : false = true := congrArg Manifest.listed (checked_ok same).1
  cases listed

end Manifest

end Minilang
