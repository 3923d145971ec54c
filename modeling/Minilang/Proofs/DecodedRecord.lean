import Minilang.Yaml.Decode

namespace Minilang.Yaml

inductive Node.Within (whole : Node) : Node → Prop where
  | here : Within whole whole
  | item {row : Nat} {label : String} {items : List Node} {node : Node}
      (inside : Within whole (.sequence row label items)) (member : node ∈ items) : Within whole node
  | value {row : Nat} {label : String} {entries : List (Node × Node)} {entry : Node × Node}
      (inside : Within whole (.mapping row label entries)) (member : entry ∈ entries) :
      Within whole entry.2

-- A node that stands in a document, or in one that a reference in it stands for.
def Document.Holds (document : Document) (node : Node) : Prop :=
  Node.Within document.root node ∨
    ∃ anchor target, (anchor, target) ∈ document.anchored ∧ Node.Within target node

namespace Document.Holds

variable {document : Document} {row : Nat} {label : String} {node : Node}
variable {nodes : List Node} {pairs : List (Node × Node)} {entry : Node × Node}

theorem item (holds : document.Holds (.sequence row label nodes)) (member : node ∈ nodes) :
    document.Holds node := by
  rcases holds with inside | ⟨anchor, target, listed, inside⟩
  · exact .inl (.item inside member)
  · exact .inr ⟨anchor, target, listed, .item inside member⟩

theorem value (holds : document.Holds (.mapping row label pairs)) (member : entry ∈ pairs) :
    document.Holds entry.2 := by
  rcases holds with inside | ⟨anchor, target, listed, inside⟩
  · exact .inl (.value inside member)
  · exact .inr ⟨anchor, target, listed, .value inside member⟩

end Document.Holds

namespace Decode

def Yields {α : Type} (document : Document) (x : Decode α) (post : α → Prop) : Prop :=
  ∀ d value after, x document d = .ok (value, after) → post value

section

variable {α β : Type} {document : Document} {x : Decode α} {f : α → Decode β}
variable {post : α → Prop} {last : β → Prop}

theorem Yields.bind (first : Yields document x post)
    (later : ∀ value, post value → Yields document (f value) last) :
    Yields document (x >>= f) last := by
  intro d value after ran
  cases begun : x document d with
  | error e =>
    have : (x >>= f) document d = .error e := by
      show (x document d >>= fun r => f r.1 document r.2) = _
      rw [begun]
      rfl
    rw [this] at ran
    cases ran
  | ok result =>
    have : (x >>= f) document d = f result.1 document result.2 := by
      show (x document d >>= fun r => f r.1 document r.2) = _
      rw [begun]
      rfl
    rw [this] at ran
    exact later result.1 (first d result.1 result.2 begun) result.2 value after ran

theorem yields_pure {value : α} (holds : post value) : Yields document (pure value) post := by
  intro d other after ran
  cases ran
  exact holds

theorem yields_none :
    Yields document (pure none) fun result => ∀ value, result = some value → post value := by
  apply yields_pure
  intro value none
  cases none

theorem yields_some {value : α} (holds : post value) :
    Yields document (pure (some value)) fun result => ∀ other, result = some other → post other := by
  apply yields_pure
  intro other same
  rwa [← Option.some.inj same]

theorem yields_throw (e : DecodeError) (post : α → Prop) : Yields document (throw e) post := by
  intro d value after ran
  cases ran

theorem yields_true (x : Decode α) : Yields document x fun _ => True := by
  intro d value after ran
  trivial

theorem yields_read : Yields document read fun read => read = document := by
  intro d value after ran
  cases ran
  rfl

theorem Yields.after (later : ∀ value, Yields document (f value) last) :
    Yields document (x >>= f) last :=
  (yields_true x).bind fun value _ => later value

theorem target_held {node : Node} (held : document.Holds node) :
    Yields document (target node) document.Holds := by
  unfold target
  split
  · refine yields_read.bind ?_
    intro _ same
    subst same
    split
    · rename_i found
      obtain ⟨before, behind, listed, -⟩ := List.lookup_eq_some_iff.mp found
      apply yields_pure
      right
      exact ⟨_, _, listed ▸ List.mem_append_right before List.mem_cons_self, .here⟩
    · exact yields_throw _ _
  · exact yields_pure held

theorem Yields.stop (e : DecodeError) : Yields document (throw e >>= f) last :=
  (yields_throw e fun _ => False).bind fun _ never => never.elim

-- A decoder meets nodes of the document only, also behind a reference.
theorem entering_yields {node : Node} {inner : Node → Decode α} (held : document.Holds node)
    (each : ∀ other, document.Holds other → Yields document (inner other) post) :
    Yields document (entering node inner) post := by
  unfold entering
  refine .after ?_
  intro _
  split
  · refine .after ?_
    intro d
    dsimp only
    split
    · exact .stop _
    · refine .after fun _ => .after fun _ => (target_held held).bind ?_
      intro other reached
      refine (each other reached).bind ?_
      intro value satisfied
      exact .after fun _ => yields_pure satisfied
  · exact each node held

end

section Records

variable {ρ : Type} {document : Document} {typeName : String} {fields : List (RecordField ρ)}
variable {keeps : ρ → Prop}

def FieldsKeep (document : Document) (fields : List (RecordField ρ)) (keeps : ρ → Prop) : Prop :=
  ∀ field ∈ fields, ∀ record node, keeps record → document.Holds node →
    Yields document (field.assign record node) keeps

theorem entry_yields (kept : FieldsKeep document fields keeps) {state : Entries ρ} {key value : Node}
    (held : document.Holds value) (given : keeps state.record) :
    Yields document (entry typeName fields state key value) fun after => keeps after.record := by
  unfold entry
  refine .after ?_
  intro name
  split
  · exact yields_pure given
  · split
    · exact yields_pure given
    · dsimp only
      split
      · exact .after fun _ => yields_pure given
      · rename_i field found
        split
        · exact .after fun _ => yields_pure given
        · refine (kept field (List.mem_of_find?_eq_some found) _ _ given held).bind ?_
          intro record satisfied
          exact yields_pure satisfied

theorem entries_yield (kept : FieldsKeep document fields keeps) {pairs : List (Node × Node)}
    (held : ∀ pair ∈ pairs, document.Holds pair.2) {state : Entries ρ} (given : keeps state.record) :
    Yields document (entries typeName fields pairs state) fun after => keeps after.record := by
  induction pairs generalizing state with
  | nil => exact yields_pure given
  | cons pair rest ih =>
    obtain ⟨here, behind⟩ := List.forall_mem_cons.mp held
    unfold entries
    split
    · exact ih behind given
    · refine (entry_yields kept here given).bind ?_
      intro next satisfied
      exact ih behind satisfied

theorem foldlM_yields {α σ : Type} {f : σ → α → Decode σ} {inv : σ → Prop} {xs : List α}
    (each : ∀ s, inv s → ∀ x ∈ xs, Yields document (f s x) inv) {s : σ} (start : inv s) :
    Yields document (xs.foldlM f s) inv := by
  induction xs generalizing s with
  | nil => exact yields_pure start
  | cons x xs ih =>
    rw [List.foldlM_cons]
    refine (each s start x List.mem_cons_self).bind ?_
    intro next satisfied
    exact ih (fun s given y member => each s given y (List.mem_cons_of_mem x member)) satisfied

theorem mergedNodes_held {source node : Node} (held : document.Holds source)
    (member : node ∈ mergedNodes source) : document.Holds node := by
  unfold mergedNodes at member
  split at member
  · exact held.item member
  · rwa [List.mem_singleton.mp member]

-- A record keeps what its fields keep, through the entries of its mapping and through all that
-- is merged into it. The induction is on how deep merges are nested.
theorem fill_yields (kept : FieldsKeep document fields keeps) (n : Nat) {pairs : List (Node × Node)}
    (held : ∀ pair ∈ pairs, document.Holds pair.2) {start : ρ} (given : keeps start)
    (taken : Option (List String)) :
    Yields document (fill typeName fields n start taken pairs) fun result => keeps result.1 := by
  induction n generalizing pairs start taken with
  | zero => exact yields_throw _ _
  | succ n ih =>
    unfold fill
    refine (entries_yield kept held given).bind ?_
    intro state satisfied
    split
    · exact yields_pure satisfied
    · rename_i key source merged
      extract_lets merge join
      have stands : document.Holds source :=
        held (key, source) (List.mem_filter.mp (List.mem_of_getLast? merged)).1
      have step : ∀ s, keeps s.1 → ∀ node ∈ mergedNodes source,
          Yields document (merge s node) fun after => keeps after.1 := by
        intro s before node member
        refine .after fun reached => ?_
        split
        · refine entering_yields (mergedNodes_held stands member) ?_
          intro other there
          split
          · refine .after fun distinct => ?_
            split
            · refine (ih (fun pair listed => there.value listed) before _).bind ?_
              intro result after
              exact yields_pure after
            · exact yields_pure before
          · exact yields_throw _ _
        · exact yields_throw _ _
      have finish : ∀ blocked, Yields document (join blocked) fun result => keeps result.1 := by
        intro blocked
        refine (foldlM_yields step satisfied).bind ?_
        intro result after
        exact yields_pure after
      split
      · exact .after finish
      · exact .after finish

theorem record_yields (kept : FieldsKeep document fields keeps) {start : ρ} (given : keeps start)
    {node : Node} (held : document.Holds node) :
    Yields document (record typeName fields start node) fun result =>
      ∀ value, result = some value → keeps value := by
  unfold record
  split
  · refine .after fun distinct => ?_
    split
    · refine .after fun _ => (fill_yields kept _ (fun pair listed => held.value listed) given _).bind ?_
      intro result after
      exact yields_some after
    · exact yields_none
  · refine .after fun meaning => ?_
    dsimp only
    split
    · exact .after fun _ => yields_none
    · exact yields_none
  · exact .after fun _ => yields_none

end Records

end Decode

theorem decode_keeps {ρ : Type} {start : ρ} {typeName : String} {fields : List (Decode.RecordField ρ)}
    {keeps : ρ → Prop} {bytes : List UInt8} {value : ρ}
    (kept : ∀ document, Document.read? bytes = some (some document) →
      Decode.FieldsKeep document fields keeps)
    (given : keeps start)
    (decoded : decode start (Decode.record typeName fields) bytes = .ok (some value)) :
    keeps value := by
  unfold decode at decoded
  split at decoded
  · cases decoded
  · cases decoded
  · rename_i document read
    split at decoded
    · cases decoded
    · rename_i result d ran
      split at decoded
      · cases decoded
        have root : document.Holds document.root := .inl .here
        have yields : Decode.Yields document
            (Decode.entering document.root (Decode.record typeName fields start))
            fun result => ∀ value, result = some value → keeps value :=
          Decode.entering_yields root fun _ there =>
            Decode.record_yields (kept document read) given there
        cases found : result with
        | none => exact given
        | some record => exact yields _ _ _ ran record found
      · cases decoded

end Minilang.Yaml
