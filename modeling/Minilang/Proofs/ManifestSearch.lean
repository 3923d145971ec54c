import Minilang.Files.Tree
import Minilang.Manifest.Files
import Minilang.Proofs.PathPieces

namespace Minilang.Manifest

open Minilang.Path

variable {files : Files Id} {directory : String} {ds : List String}
variable {result : Except Failure String}

def candidate (directory : String) : String := join directory manifestName

def Passed (files : Files Id) (directory : String) : Prop :=
  files.kind (candidate directory) = .error .notFound ∨
    files.kind (candidate directory) = .ok .directory

inductive Answers (files : Files Id) (directory : String) : Except Failure String → Prop where
  | found (regular : files.kind (candidate directory) = .ok .regular) :
      Answers files directory (.ok (candidate directory))
  | refused (failed : files.kind (candidate directory) = .error cause) (other : cause ≠ .notFound) :
      Answers files directory (.error (.context ("manifest: stat " ++ candidate directory)
        (.system "stat" (candidate directory) cause)))

theorem passed_or_answers (files : Files Id) (directory : String) :
    Passed files directory ∨ ∃ result, Answers files directory result := by
  cases looked : files.kind (candidate directory) with
  | ok kind =>
    cases kind with
    | directory => exact .inl (.inr looked)
    | regular => exact .inr ⟨_, .found looked⟩
  | error cause =>
    by_cases none : cause = .notFound
    · subst none
      exact .inl (.inl looked)
    · exact .inr ⟨_, .refused looked none⟩

theorem Answers.stops (answers : Answers files directory result) : ¬Passed files directory := by
  intro passed
  cases answers with
  | found regular =>
    rcases passed with none | taken
    · cases regular.symm.trans none
    · cases regular.symm.trans taken
  | refused failed other =>
    rcases passed with none | taken
    · cases failed.symm.trans none
      exact other rfl
    · cases failed.symm.trans taken

theorem findIn_cons (files : Files Id) (directory : String) (rest : List String) :
    findIn files (directory :: rest) =
      match files.kind (candidate directory) with
      | .ok .regular => .ok (candidate directory)
      | .ok .directory => findIn files rest
      | .error .notFound => findIn files rest
      | .error cause => .error (.context ("manifest: stat " ++ candidate directory)
          (.system "stat" (candidate directory) cause)) := rfl

theorem findIn_passed (passed : Passed files directory) (rest : List String) :
    findIn files (directory :: rest) = findIn files rest := by
  rw [findIn_cons]
  rcases passed with none | taken
  · rw [none]
  · rw [taken]

theorem findIn_answers (answers : Answers files directory result) (rest : List String) :
    findIn files (directory :: rest) = result := by
  rw [findIn_cons]
  cases answers with
  | found regular => rw [regular]
  | refused failed other =>
    rw [failed]
    split
    · rename_i same
      cases same
    · rename_i same
      cases same
    · rename_i same
      cases same
      exact absurd rfl other
    · rename_i same
      cases same
      rfl

theorem findIn_none (passed : ∀ d ∈ ds, Passed files d) :
    findIn files ds = Except.error Failure.manifestNotFound := by
  induction ds with
  | nil => rfl
  | cons d ds ih =>
    obtain ⟨here, later⟩ := List.forall_mem_cons.mp passed
    rw [findIn_passed here, ih later]

theorem findIn_first {i : Nat} (there : ds[i]? = some directory)
    (before : ∀ j < i, ∀ d, ds[j]? = some d → Passed files d)
    (answers : Answers files directory result) : findIn files ds = result := by
  induction ds generalizing i with
  | nil => cases there
  | cons d ds ih =>
    cases i with
    | zero =>
      cases there
      exact findIn_answers answers ds
    | succ i =>
      rw [findIn_passed (before 0 (Nat.succ_pos i) d rfl)]
      exact ih there fun j less => before (j + 1) (Nat.succ_lt_succ less)

section Upwards

variable {first : String}

theorem search_first {i : Nat} (before : ∀ j < i, Passed files (above j first))
    (answers : Answers files (above i first) result) : findIn files (ancestors first) = result := by
  obtain ⟨m, chain, top⟩ := ancestors_chain first
  rw [chain]
  by_cases inside : i < m + 1
  · apply findIn_first (i := i) _ _ answers
    · simp [inside]
    · intro j less d there
      have earlier : j < m + 1 := Nat.lt_trans less inside
      obtain rfl : above j first = d := by simpa [earlier] using there
      exact before j less
  -- Beyond the top all directories are the top again, which was passed.
  · have same : above i first = above m first := by
      obtain ⟨k, rfl⟩ := Nat.exists_eq_add_of_le (Nat.not_lt.mp inside)
      rw [Nat.add_assoc, above_add, above_top top]
    rw [same] at answers
    exact absurd (before m (Nat.not_lt.mp inside)) answers.stops

theorem search_none (passed : ∀ i, Passed files (above i first)) :
    findIn files (ancestors first) = Except.error Failure.manifestNotFound := by
  obtain ⟨m, chain, top⟩ := ancestors_chain first
  rw [chain]
  apply findIn_none
  intro d member
  obtain ⟨i, _, rfl⟩ := List.mem_map.mp member
  exact passed i

theorem first_stop (files : Files Id) (first : String) (n : Nat) :
    (∀ i < n, Passed files (above i first)) ∨
      ∃ i result, (∀ j < i, Passed files (above j first)) ∧ Answers files (above i first) result := by
  induction n with
  | zero => exact .inl fun i less => absurd less (Nat.not_lt_zero i)
  | succ n ih =>
    rcases ih with passed | stopped
    · rcases passed_or_answers files (above n first) with here | ⟨result, answers⟩
      · left
        intro i less
        rcases Nat.lt_succ_iff_lt_or_eq.mp less with earlier | rfl
        · exact passed i earlier
        · exact here
      · exact .inr ⟨n, result, passed, answers⟩
    · exact .inr stopped

theorem search_iff (files : Files Id) (first : String) (result : Except Failure String) :
    findIn files (ancestors first) = result ↔
      (∃ i, (∀ j < i, Passed files (above j first)) ∧ Answers files (above i first) result) ∨
        result = .error .manifestNotFound ∧ ∀ i, Passed files (above i first) := by
  constructor
  · intro ended
    by_cases all : ∀ i, Passed files (above i first)
    · exact .inr ⟨ended.symm.trans (search_none all), all⟩
    · obtain ⟨n, stopped⟩ := Classical.not_forall.mp all
      rcases first_stop files first (n + 1) with passed | ⟨i, other, before, answers⟩
      · exact absurd (passed n (Nat.lt_succ_self n)) stopped
      · obtain rfl := (search_first before answers).symm.trans ended
        exact .inl ⟨i, before, answers⟩
  · intro ends
    rcases ends with ⟨i, before, answers⟩ | ⟨rfl, passed⟩
    · exact search_first before answers
    · exact search_none passed

end Upwards

inductive StartsIn (files : Files Id) (start : String) : String → Prop where
  | place (given : files.kind (absolute files.workingDirectory start) = .ok .directory) :
      StartsIn files start (absolute files.workingDirectory start)
  | above (other : files.kind (absolute files.workingDirectory start) ≠ .ok .directory) :
      StartsIn files start (parent (absolute files.workingDirectory start))

theorem searchStart_looked (files : Files Id) (start : String) :
    searchStart files start =
      match files.kind (absolute files.workingDirectory start) with
      | .ok .directory => absolute files.workingDirectory start
      | _ => parent (absolute files.workingDirectory start) := rfl

theorem searchStart_eq {start first : String} (starts : StartsIn files start first) :
    searchStart files start = first := by
  rw [searchStart_looked]
  cases starts with
  | place given => rw [given]
  | above other =>
    split
    · rename_i given
      exact absurd given other
    · rfl

theorem StartsIn.absolute {start first : String} (starts : StartsIn files start first)
    (rooted : isAbsolute files.workingDirectory = true) : isAbsolute first = true := by
  have place := absolute_absolute rooted start
  cases starts with
  | place => exact place
  | above => exact parent_absolute place

-- The nearest manifest is found, or the first place that cannot be looked at, and nothing else
-- ends a search before the directory that is its own parent: the root, if paths have one.
theorem nearest_manifest_found (files : Files Id) (start first : String)
    (starts : StartsIn files start first) :
    (∀ result, find files start = result ↔
        (∃ i, (∀ j < i, Passed files (above j first)) ∧ Answers files (above i first) result) ∨
          result = Except.error Failure.manifestNotFound ∧ ∀ i, Passed files (above i first)) ∧
      (find files start = Except.error Failure.manifestNotFound ↔
        ∀ i, Passed files (above i first)) ∧
      ∃ n, parent (above n first) = above n first ∧
        (isAbsolute files.workingDirectory = true → above n first = "/") := by
  have found : find files start = findIn files (ancestors (searchStart files start)) := rfl
  rw [found, searchStart_eq starts]
  refine ⟨search_iff files first, ?_, ?_⟩
  · rw [search_iff]
    constructor
    · intro ends
      rcases ends with ⟨i, _, answers⟩ | ⟨_, passed⟩
      · cases answers
      · exact passed
    · intro passed
      exact .inr ⟨rfl, passed⟩
  · obtain ⟨n, _, top⟩ := ancestors_chain first
    refine ⟨n, top, ?_⟩
    intro rooted
    exact top_absolute (above_absolute (starts.absolute rooted) n) top

def nestedTree : FileTree :=
  .directory [("p", .directory [("minilang.yml", .file []),
    ("a", .directory [("minilang.yml", .directory []), ("b", .file [])])])]

theorem nearest_manifest_found_above :
    StartsIn (nestedTree.files "/p/a") "b" "/p/a" ∧
      find (nestedTree.files "/p/a") "b" = Except.ok "/p/minilang.yml" := by
  have starts : StartsIn (nestedTree.files "/p/a") "b" "/p/a" := .above (by intro given; cases given)
  refine ⟨starts, ((nearest_manifest_found _ "b" "/p/a" starts).1 _).mpr (.inl ⟨1, ?_, ?_⟩)⟩
  · intro j less
    obtain rfl : j = 0 := by omega
    exact .inr rfl
  · exact .found rfl

end Minilang.Manifest
