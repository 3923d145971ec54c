import Minilang.Proofs.ByteOrder
import Minilang.Proofs.StoreLookup

namespace Minilang

section Bindings

variable {name : String} {value : Int} {bindings entries : List (String × Int)}

theorem insertBinding_perm (new : name ∉ bindings.map (·.1)) :
    (insertBinding name value bindings).Perm ((name, value) :: bindings) := by
  induction bindings with
  | nil => exact .refl _
  | cons head rest ih =>
    obtain ⟨key, old⟩ := head
    rw [List.map_cons, List.mem_cons, not_or] at new
    unfold insertBinding
    rw [if_neg new.1]
    split
    · exact .refl _
    · exact ((ih new.2).cons _).trans (.swap _ _ _)

namespace Store

theorem eq_of_bindings {s t : Store} (same : s.bindings = t.bindings) : s = t := by
  cases s
  cases t
  cases same
  rfl

theorem names_distinct (s : Store) : s.names.Nodup :=
  s.names_ordered.imp fun less => by
    rintro rfl
    exact String.lt_irrefl _ less

-- Entries of different names, none of them bound yet: defining them adds just them, in
-- whatever order they come.
theorem defineAll_perm (entries : List (String × Int)) (s : Store)
    (distinct : ((entries ++ s.bindings).map (·.1)).Nodup) :
    (entries.foldl (fun s entry => s.define entry.1 entry.2) s).bindings.Perm
      (entries ++ s.bindings) := by
  induction entries generalizing s with
  | nil => exact .refl _
  | cons entry rest ih =>
    rw [List.cons_append, List.map_cons, List.nodup_cons] at distinct
    obtain ⟨new, others⟩ := distinct
    have unbound : entry.1 ∉ s.bindings.map (·.1) := by
      intro bound
      exact new (by rw [List.map_append]; exact List.mem_append_right _ bound)
    have added : (rest ++ (s.define entry.1 entry.2).bindings).Perm (entry :: (rest ++ s.bindings)) :=
      ((insertBinding_perm unbound).append_left rest).trans List.perm_middle
    have apart : ((rest ++ (s.define entry.1 entry.2).bindings).map (·.1)).Nodup := by
      rw [(added.map (·.1)).nodup_iff, List.map_cons]
      exact List.nodup_cons.mpr ⟨new, others⟩
    rw [List.foldl_cons]
    exact (ih _ apart).trans added

theorem restore_perm (t : Store) {s : Store} (order : entries.Perm s.snapshot) :
    t.restore entries = s := by
  have distinct : ((entries ++ empty.bindings).map (·.1)).Nodup := by
    rw [show empty.bindings = [] from rfl, List.append_nil, (order.map (·.1)).nodup_iff]
    exact s.names_distinct
  have same : (ofBindings entries).bindings.Perm s.bindings := by
    have all := defineAll_perm entries empty distinct
    rw [show empty.bindings = [] from rfl, List.append_nil] at all
    exact all.trans order
  apply eq_of_bindings
  refine same.eq_of_pairwise ?_ (t.restore entries).ordered s.ordered
  intro a b _ _ less more
  exact absurd more (String.lt_asymm less)

end Store

end Bindings

-- What can be asked of a store that is kept beside snapshots of it. A snapshot is told by how
-- many were taken before it.
inductive StoreAction where
  | define (name : String) (value : Int)
  | snapshot
  | restore (index : Nat)
  | reset

structure Archive where
  store : Store
  snapshots : List (List (String × Int))

namespace Archive

def start : Archive := ⟨.empty, []⟩

-- A snapshot has no order of its own: a new store may be given its entries in any.
inductive Acts : Archive → StoreAction → Archive → Prop where
  | define : Acts a (.define name value) ⟨a.store.define name value, a.snapshots⟩
  | snapshot : Acts a .snapshot ⟨a.store, a.snapshots ++ [a.store.snapshot]⟩
  | restore {index : Nat} {entries shuffled : List (String × Int)}
      (taken : a.snapshots[index]? = some entries) (order : shuffled.Perm entries) :
      Acts a (.restore index) ⟨a.store.restore shuffled, a.snapshots⟩
  | reset : Acts a .reset ⟨a.store.reset, a.snapshots⟩

inductive Reached : List StoreAction → Archive → Prop where
  | start : Reached [] .start
  | act (reached : Reached earlier a) (acts : Acts a action b) : Reached (action :: earlier) b

end Archive

namespace StoreAction

def taken : List StoreAction → List (List StoreAction)
  | [] => []
  | .snapshot :: earlier => taken earlier ++ [earlier]
  | _ :: earlier => taken earlier

def Keeps (name : String) : StoreAction → Prop
  | .define other _ => other ≠ name
  | .snapshot => True
  | .restore _ | .reset => False

-- What a history says of a name, without a store: its last definition since the last reset,
-- or else what the snapshot restored since then says.
inductive Binds : List StoreAction → String → Int → Prop where
  | defined : Binds (.define name value :: earlier) name value
  | kept (keeps : action.Keeps name) (binds : Binds earlier name value) :
      Binds (action :: earlier) name value
  | restored {index : Nat} (found : (taken earlier)[index]? = some before)
      (binds : Binds before name value) : Binds (.restore index :: earlier) name value

variable {name other : String} {value bound : Int} {earlier before : List StoreAction}

theorem binds_define : Binds (.define other bound :: earlier) name value ↔
    if name = other then bound = value else Binds earlier name value := by
  constructor
  · intro binds
    cases binds with
    | defined => rw [if_pos rfl]
    | kept keeps binds => rwa [if_neg (Ne.symm keeps)]
  · intro told
    split at told
    · rename_i same
      subst same told
      exact .defined
    · rename_i differs
      exact .kept (Ne.symm differs) told

@[simp]
theorem binds_snapshot : Binds (.snapshot :: earlier) name value ↔ Binds earlier name value := by
  constructor
  · intro binds
    cases binds with
    | kept _ binds => exact binds
  · exact .kept trivial

@[simp]
theorem not_binds_reset : ¬ Binds (.reset :: earlier) name value := by
  intro binds
  cases binds with
  | kept keeps => exact keeps

theorem binds_restore {index : Nat} (found : (taken earlier)[index]? = some before) :
    Binds (.restore index :: earlier) name value ↔ Binds before name value := by
  constructor
  · intro binds
    cases binds with
    | kept keeps => exact keeps.elim
    | restored other binds =>
      rw [found] at other
      cases other
      exact binds
  · exact .restored found

theorem taken_shorter {history : List StoreAction} (member : before ∈ taken history) :
    before.length < history.length := by
  induction history with
  | nil => cases member
  | cons action earlier ih =>
    rw [List.length_cons]
    cases action with
    | snapshot =>
      rcases List.mem_append.mp member with old | new
      · exact Nat.lt_succ_of_lt (ih old)
      · cases List.mem_singleton.mp new
        exact Nat.lt_succ_self _
    | define | restore | reset => exact Nat.lt_succ_of_lt (ih member)

theorem taken_at (later before : List StoreAction) :
    (taken (later ++ .snapshot :: before))[(taken before).length]? = some before := by
  induction later with
  | nil => simp [taken]
  | cons action later ih =>
    cases action with
    | snapshot =>
      have inside := (List.getElem?_eq_some_iff.mp ih).1
      rw [List.cons_append, taken, List.getElem?_append_left inside]
      exact ih
    | define | restore | reset => exact ih

end StoreAction

namespace Archive

open StoreAction

variable {history : List StoreAction} {a : Archive}

theorem Reached.snapshots (reached : Reached history a) :
    a.snapshots.length = (taken history).length ∧
    ∀ (index : Nat) before, (taken history)[index]? = some before →
      ∃ b, Reached before b ∧ a.snapshots[index]? = some b.store.snapshot := by
  induction reached with
  | start => exact ⟨rfl, fun _ _ found => (by cases found)⟩
  | @act earlier a action b reached acts ih =>
    obtain ⟨lengths, each⟩ := ih
    cases acts with
    | define | reset | restore => exact ⟨lengths, each⟩
    | snapshot =>
      refine ⟨by simp [taken, lengths], ?_⟩
      intro index before found
      rw [taken] at found
      rcases Nat.lt_trichotomy index (taken earlier).length with old | rfl | beyond
      · rw [List.getElem?_append_left old] at found
        obtain ⟨b, there, kept⟩ := each index before found
        exact ⟨b, there, by rwa [List.getElem?_append_left (by omega)]⟩
      · rw [List.getElem?_concat_length] at found
        cases found
        exact ⟨a, reached, by rw [← lengths, List.getElem?_concat_length]⟩
      · rw [List.getElem?_eq_none (by simp; omega)] at found
        cases found

theorem Reached.snapshot (reached : Reached history a) {index : Nat}
    {entries : List (String × Int)} (kept : a.snapshots[index]? = some entries) :
    ∃ before b, (taken history)[index]? = some before ∧ Reached before b ∧
      entries = b.store.snapshot := by
  obtain ⟨lengths, each⟩ := reached.snapshots
  have inside := (List.getElem?_eq_some_iff.mp kept).1
  rw [lengths] at inside
  obtain ⟨b, there, same⟩ := each index _ (List.getElem?_eq_getElem inside)
  rw [kept] at same
  exact ⟨_, b, List.getElem?_eq_getElem inside, there, Option.some.inj same⟩

theorem restore_iff {index : Nat} {s : Store} (kept : a.snapshots[index]? = some s.snapshot)
    (next : Archive) : Acts a (.restore index) next ↔ next = ⟨s, a.snapshots⟩ := by
  constructor
  · intro acts
    cases acts with
    | restore taken order =>
      rw [kept] at taken
      cases taken
      rw [Store.restore_perm _ order]
  · rintro rfl
    have acts : Acts a (.restore index) _ := .restore kept (.refl _)
    rwa [Store.restore_perm _ (.refl _)] at acts

-- The argument goes by the length of the history, since a restored snapshot leads back to an
-- earlier one that is not the one before the last action.
theorem Reached.binds (reached : Reached history a) (name : String) (value : Int) :
    a.store.lookup? name = some value ↔ Binds history name value := by
  induction size : history.length using Nat.strongRecOn generalizing history a with
  | ind n ih =>
    cases reached with
    | start => exact ⟨fun found => (by cases found), fun binds => (by cases binds)⟩
    | @act earlier before action b reached acts =>
      have shorter : earlier.length < n := by
        rw [← size, List.length_cons]
        exact Nat.lt_succ_self _
      have same := ih _ shorter reached rfl
      cases acts with
      | define =>
        rw [Store.lookup?_define, binds_define, ← same]
        split
        · exact Option.some_inj
        · exact Iff.rfl
      | snapshot => rw [binds_snapshot, ← same]
      | reset => exact ⟨fun found => (by cases found), fun binds => (not_binds_reset binds).elim⟩
      | restore kept order =>
        obtain ⟨front, b, found, there, rfl⟩ := reached.snapshot kept
        have older := taken_shorter (List.mem_of_getElem? found)
        have past := ih _ (Nat.lt_trans older shorter) there rfl
        rw [Store.restore_perm _ order, binds_restore found]
        exact past

theorem acts_only {action : StoreAction} {next : Archive} (acts : Acts a action next)
    (single : ∀ other, Acts a action other → other = next) :
    ∃ next, ∀ other, Acts a action other ↔ other = next := by
  refine ⟨next, fun other => ⟨single other, ?_⟩⟩
  rintro rfl
  exact acts

theorem Reached.acts (reached : Reached history a) (action : StoreAction)
    (possible : ∀ index, action = .restore index → index < a.snapshots.length) :
    ∃ next, ∀ other, Acts a action other ↔ other = next := by
  cases action with
  | define => exact acts_only .define fun _ acts => by cases acts; rfl
  | snapshot => exact acts_only .snapshot fun _ acts => by cases acts; rfl
  | reset => exact acts_only .reset fun _ acts => by cases acts; rfl
  | restore index =>
    have kept := List.getElem?_eq_getElem (possible index rfl)
    obtain ⟨before, b, _, _, same⟩ := reached.snapshot kept
    exact ⟨⟨b.store, a.snapshots⟩, restore_iff (same ▸ kept)⟩

theorem Acts.possible {action : StoreAction} {b : Archive} (acts : Acts a action b) (index : Nat)
    (restores : action = .restore index) : index < a.snapshots.length := by
  subst restores
  cases acts with
  | restore taken => exact (List.getElem?_eq_some_iff.mp taken).1

theorem Reached.unique {b : Archive} (one : Reached history a) (two : Reached history b) :
    a = b := by
  induction one generalizing b with
  | start =>
    cases two
    rfl
  | act reached acts ih =>
    cases two with
    | act other also =>
      obtain rfl := ih other
      obtain ⟨next, only⟩ := reached.acts _ acts.possible
      exact ((only _).mp acts).trans ((only _).mp also).symm

theorem store_is_latest_map (history : List StoreAction) (a : Archive)
    (reached : Reached history a) :
    (∀ name value, a.store.lookup? name = some value ↔ Binds history name value) ∧
    a.store.names.Pairwise (fun one two => Text.bytesOf one < Text.bytesOf two) ∧
    (∀ name, name ∈ a.store.names ↔ ∃ value, a.store.lookup? name = some value) ∧
    a.store.size = a.store.names.length ∧
    (∀ later before, history = later ++ .snapshot :: before → ∃ b,
      (∀ other, Reached before other ↔ other = b) ∧
      a.snapshots[(taken before).length]? = some b.store.bindings ∧
      ∀ next, Acts a (.restore (taken before).length) next ↔ next = ⟨b.store, a.snapshots⟩) ∧
    ∀ action, (∀ index, action = .restore index → index < a.snapshots.length) →
      ∃ next, ∀ other, Acts a action other ↔ other = next := by
  refine ⟨reached.binds, a.store.names_ordered.imp Text.bytesOf_lt, ?_, ?_, ?_, reached.acts⟩
  · intro name
    rw [Store.mem_names, Option.isSome_iff_exists]
  · rw [Store.size, Store.names, List.length_map]
  · rintro later before rfl
    obtain ⟨b, there, kept⟩ := reached.snapshots.2 _ _ (taken_at later before)
    refine ⟨b, fun other => ⟨fun also => also.unique there, ?_⟩, kept, restore_iff kept⟩
    rintro rfl
    exact there

theorem store_is_latest_map_restored :
    let history : List StoreAction :=
      [.restore 0, .reset, .define "x" 2, .snapshot, .define "a" 5, .define "x" 1]
    let a : Archive := ⟨.ofBindings [("x", 1), ("a", 5)], [[("a", 5), ("x", 1)]]⟩
    Reached history a ∧ Binds history "x" 1 ∧ ¬ Binds history "x" 2 ∧ a.store.names = ["a", "x"] ∧
    ∃ b, Reached [.define "a" 5, .define "x" 1] b ∧ b.store.bindings = [("a", 5), ("x", 1)] := by
  intro history a
  have before : Reached [.define "a" 5, .define "x" 1] _ := .act (.act .start .define) .define
  have reached : Reached history a :=
    .act (.act (.act (.act before .snapshot) .define) .reset) (.restore rfl (.swap _ _ _))
  obtain ⟨binds, _, _, _, snapshots, _⟩ := store_is_latest_map history a reached
  obtain ⟨b, there, kept, _⟩ := snapshots [.restore 0, .reset, .define "x" 2] _ rfl
  refine ⟨reached, (binds "x" 1).mp rfl, ?_, rfl, b, (there b).mpr rfl, (Option.some.inj kept).symm⟩
  intro bound
  have found := (binds "x" 2).mpr bound
  cases found

end Archive

end Minilang
