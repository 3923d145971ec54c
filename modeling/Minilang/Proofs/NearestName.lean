import Minilang.Proofs.ByteOrder
import Minilang.Proofs.EditDistance
import Minilang.Proofs.StoreFrame

namespace Minilang

inductive Nearest (name : String) (seen : List String) : String × Nat → Prop where
  | none (far : ∀ other ∈ seen, other ≠ name → editLimit name < editDistance name other) :
      Nearest name seen ("", editLimit name + 1)
  | found (member : best ∈ seen) (differs : best ≠ name)
      (close : editDistance name best ≤ editLimit name)
      (least : ∀ other ∈ seen, other ≠ name → editDistance name best ≤ editDistance name other)
      (first : ∀ other ∈ seen, other ≠ name →
        editDistance name other = editDistance name best → best ≤ other) :
      Nearest name seen (best, editDistance name best)

section Choice

variable {name candidate : String} {seen : List String} {best : String × Nat}

theorem forall_seen {P : String → Prop} (before : ∀ other ∈ seen, other ≠ name → P other)
    (here : candidate ≠ name → P candidate) :
    ∀ other ∈ seen ++ [candidate], other ≠ name → P other :=
  List.forall_mem_append.mpr ⟨before, List.forall_mem_singleton.mpr here⟩

-- A candidate that is not closer than the one kept changes nothing: where it ties, it comes later.
theorem Nearest.keep (known : Nearest name seen best) (ordered : ∀ other ∈ seen, other < candidate)
    (further : candidate ≠ name → best.2 ≤ editDistance name candidate) :
    Nearest name (seen ++ [candidate]) best := by
  cases known with
  | none far => exact .none (forall_seen far further)
  | found member differs close least first =>
    refine .found (List.mem_append_left _ member) differs close (forall_seen least further) ?_
    refine forall_seen first fun _ _ => ?_
    exact String.not_lt.mp (String.lt_asymm (ordered _ member))

theorem Nearest.replace (known : Nearest name seen best) (differs : candidate ≠ name)
    (nearer : editDistance name candidate < best.2) :
    Nearest name (seen ++ [candidate]) (candidate, editDistance name candidate) := by
  have limited : editDistance name candidate ≤ editLimit name := by
    cases known with
    | none => exact Nat.lt_succ_iff.mp nearer
    | found _ _ close => exact Nat.le_of_lt (Nat.lt_of_lt_of_le nearer close)
  have strict : ∀ other ∈ seen, other ≠ name →
      editDistance name candidate < editDistance name other := by
    intro other member others
    cases known with
    | none far => exact Nat.lt_of_le_of_lt limited (far other member others)
    | found _ _ _ least => exact Nat.lt_of_lt_of_le nearer (least other member others)
  refine .found (by simp) differs limited ?_ ?_
  · exact forall_seen (fun other member others => Nat.le_of_lt (strict other member others))
      fun _ => Nat.le_refl _
  · refine forall_seen (fun other member others same => ?_) fun _ _ => String.le_refl _
    exact absurd same (Nat.ne_of_gt (strict other member others))

theorem closer_nearest (known : Nearest name seen best)
    (ordered : ∀ other ∈ seen, other < candidate) :
    Nearest name (seen ++ [candidate]) (closer name best candidate) := by
  unfold closer
  split
  · rename_i same
    exact known.keep ordered fun differs => absurd same differs
  · rename_i differs
    dsimp only
    split
    · rename_i less
      exact known.replace differs less
    · rename_i more
      exact known.keep ordered fun _ => Nat.not_lt.mp more

theorem foldl_nearest {rest : List String} (known : Nearest name seen best)
    (ordered : (seen ++ rest).Pairwise (· < ·)) :
    Nearest name (seen ++ rest) (rest.foldl (closer name) best) := by
  induction rest generalizing seen best with
  | nil => rwa [List.append_nil]
  | cons candidate rest ih =>
    have before : ∀ other ∈ seen, other < candidate := fun other member =>
      (List.pairwise_append.mp ordered).2.2 other member candidate (List.mem_cons_self ..)
    rw [List.append_cons] at ordered ⊢
    exact ih (closer_nearest known before) ordered

end Choice

theorem suggestion_kept (name : String) (s : Store) :
    ∃ distance, Nearest name s.names (suggestion name s, distance) := by
  have start : Nearest name [] ("", editLimit name + 1) := .none (List.forall_mem_nil _)
  exact ⟨_, foldl_nearest start s.names_ordered⟩

theorem Expr.Readable.targets_filled {e : Expr} (readable : e.Readable) :
    ∀ name ∈ e.targets, name ≠ "" := by
  cases e with
  | assign origin target value =>
    obtain ⟨⟨found, rfl, word, _⟩, plain⟩ := readable
    intro name member
    rw [targets, plain.untargeted, List.append_nil] at member
    obtain rfl : name = found.name := List.mem_singleton.mp member
    intro empty
    exact word.1 (by rw [empty]; rfl)
  | missing | number | ident | unary | binary =>
    rw [Expr.Plain.untargeted readable]
    exact List.forall_mem_nil _

theorem run_names_filled (read : Parse.source source = .ok body)
    (ran : Ends options body (.start .empty sink) outcome after) :
    ∀ name ∈ after.store.names, name ≠ "" := by
  intro name member
  have target := ran.steps.boundTo.new rfl (Store.mem_names.mp member)
  obtain ⟨e, listed, bound⟩ := List.mem_flatMap.mp target
  obtain ⟨tokens, scanned, parsed⟩ := source_ok.mp read
  have readable := Stmt.AllReadable.expressions body (source_readable scanned parsed) e listed
  exact readable.targets_filled name bound

theorem suggestion_nearest :
    (∀ (name : String) (s : Store), (∀ other ∈ s.names, other ≠ "") →
      (suggestion name s = "" ↔ ¬∃ other ∈ s.names, other ≠ name ∧
        ∃ n ≤ max 1 (name.utf8ByteSize / 2), Edits n name.toList other.toList) ∧
      (suggestion name s ≠ "" → suggestion name s ∈ s.names ∧ suggestion name s ≠ name ∧
        ∃ least, Edits least name.toList (suggestion name s).toList ∧
          ∀ other ∈ s.names, other ≠ name → ∀ n, Edits n name.toList other.toList →
            least ≤ n ∧ (n = least → Text.bytesOf (suggestion name s) ≤ Text.bytesOf other))) ∧
    ∀ options sink source body outcome after, Parse.source source = .ok body →
      Ends options body (.start .empty sink) outcome after →
        ∀ other ∈ after.store.names, other ≠ "" := by
  refine ⟨fun name s filled => ?_, fun _ _ _ _ _ _ read ran => run_names_filled read ran⟩
  obtain ⟨distance, kept⟩ := suggestion_kept name s
  generalize suggestion name s = best at kept
  cases kept with
  | none far =>
    refine ⟨iff_of_true rfl ?_, fun some => absurd rfl some⟩
    rintro ⟨other, member, differs, n, close, edits⟩
    have apart := far other member differs
    have most := editDistance_least edits
    unfold editLimit at apart
    omega
  | found member differs close least first =>
    have edits := edits_editDistance name best
    refine ⟨iff_of_false (filled best member) (not_not_intro ?_),
      fun _ => ⟨member, differs, _, edits, ?_⟩⟩
    · exact ⟨best, member, differs, _, close, edits⟩
    intro other bound others n edits
    have most := editDistance_least edits
    have fewest := least other bound others
    refine ⟨Nat.le_trans fewest most, fun same => (Text.bytesOf_le_iff _ _).mpr ?_⟩
    exact first other bound others (by omega)

theorem suggestion_nearest_tied :
    let s : Store := .ofBindings [("total", 1), ("ac", 2), ("ab", 3)]
    (suggestion "aa" s = "ab" ∧ ∃ least, Edits least "aa".toList "ab".toList ∧
      ∀ n, Edits n "aa".toList "ac".toList → least ≤ n) ∧
    (suggestion "x" s = "" ∧ ¬∃ n ≤ 1, Edits n "x".toList "ab".toList) ∧
    ∃ body after, Parse.source [97, 61, 49, 59] = .ok body ∧
      Ends {} body (.start .empty none) none after ∧ ∀ other ∈ after.store.names, other ≠ "" := by
  intro s
  obtain ⟨nearest, runs⟩ := suggestion_nearest
  have filled : ∀ other ∈ s.names, other ≠ "" := by decide
  refine ⟨?_, ?_, ?_⟩
  · have tied : suggestion "aa" s = "ab" := by decide
    obtain ⟨-, -, least, edits, closest⟩ := (nearest "aa" s filled).2 (by simp [tied])
    rw [tied] at edits
    exact ⟨tied, least, edits, fun n other => (closest "ac" (by decide) (by decide) n other).1⟩
  · have alone : suggestion "x" s = "" := by decide
    refine ⟨alone, ?_⟩
    rintro ⟨n, most, edits⟩
    exact (nearest "x" s filled).1.mp alone ⟨"ab", by decide, by decide, n, most, edits⟩
  · let target : Target := ⟨⟨⟨0, 0⟩, .identifier, "a", none⟩, "a"⟩
    let value : Expr := .number ⟨⟨0, 2⟩, .number, "1", some 1⟩ (some 1)
    let body : List Stmt := [.expr (.assign ⟨⟨0, 1⟩, .operator, "=", none⟩ (some target) value)]
    have read : Parse.source [97, 61, 49, 59] = .ok body := rfl
    have ran : Ends {} body (.start .empty none) none
        ⟨.ofBindings [("a", 1)], #[], #[], none⟩ := ⟨0, rfl⟩
    exact ⟨body, _, read, ran, runs _ _ _ _ _ _ read ran⟩

end Minilang
