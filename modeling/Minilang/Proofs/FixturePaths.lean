import Mathlib.Data.List.Sort
import Minilang.Files.Tree
import Minilang.Manifest.Files
import Minilang.Proofs.ByteOrder

namespace Minilang

namespace Files

variable {path x : String} {paths others : List String}

@[simp]
theorem mem_insertPath : x ∈ insertPath path paths ↔ x = path ∨ x ∈ paths := by
  induction paths with
  | nil => simp [insertPath]
  | cons first rest ih =>
    unfold insertPath
    split
    · exact List.mem_cons
    · split
      · rename_i same
        subst same
        rw [List.mem_cons]
        exact ⟨.inr, fun given => given.elim .inl id⟩
      · rw [List.mem_cons, ih, List.mem_cons]
        exact or_left_comm

theorem insertPath_ordered (ordered : paths.Pairwise (· < ·)) :
    (insertPath path paths).Pairwise (· < ·) := by
  induction paths with
  | nil => exact List.pairwise_singleton _ _
  | cons first rest ih =>
    obtain ⟨least, later⟩ := List.pairwise_cons.mp ordered
    unfold insertPath
    split
    · rename_i less
      refine List.pairwise_cons.mpr ⟨?_, ordered⟩
      intro x member
      rcases List.mem_cons.mp member with rfl | behind
      · exact less
      · exact String.lt_trans less (least x behind)
    · rename_i notLess
      split
      · exact ordered
      · rename_i other
        refine List.pairwise_cons.mpr ⟨?_, ih later⟩
        intro x member
        rcases mem_insertPath.mp member with rfl | old
        · apply String.not_le.mp
          intro most
          exact other (String.le_antisymm most (String.not_lt.mp notLess))
        · exact least x old

@[simp]
theorem mem_sortedSet : x ∈ sortedSet paths ↔ x ∈ paths := by
  induction paths with
  | nil => exact Iff.rfl
  | cons first rest ih =>
    show x ∈ insertPath first (sortedSet rest) ↔ _
    rw [mem_insertPath, ih, List.mem_cons]

theorem sortedSet_ordered (paths : List String) : (sortedSet paths).Pairwise (· < ·) := by
  induction paths with
  | nil => exact .nil
  | cons first rest ih => exact insertPath_ordered ih

theorem sortedSet_congr (same : ∀ x, x ∈ paths ↔ x ∈ others) :
    sortedSet paths = sortedSet others := by
  apply (sortedSet_ordered paths).eq_of_mem_iff (sortedSet_ordered others)
  intro x
  rw [mem_sortedSet, mem_sortedSet, same]

end Files

namespace Manifest

variable {files : Files Id} {m : Manifest} {patterns found : List String}

def expandAll (files : Files Id) (m : Manifest) : List String → Except Failure (List String)
  | [] => .ok []
  | pattern :: rest =>
    match files.expand (m.resolve pattern) with
    | none =>
      .error
        (.context ("manifest: fixtures " ++ Text.quoted pattern) (.plain "syntax error in pattern"))
    | some here => (expandAll files m rest).map (here ++ ·)

theorem expandAll_inv {pattern : String}
    (expanded : expandAll files m (pattern :: patterns) = Except.ok found) :
    ∃ here rest, files.expand (m.resolve pattern) = some here ∧
      expandAll files m patterns = Except.ok rest ∧ found = here ++ rest := by
  unfold expandAll at expanded
  cases here : files.expand (m.resolve pattern) with
  | none =>
    simp only [here] at expanded
    cases expanded
  | some first =>
    simp only [here] at expanded
    cases rest : expandAll files m patterns with
    | error failure =>
      simp only [rest] at expanded
      cases expanded
    | ok later =>
      simp only [rest] at expanded
      cases expanded
      exact ⟨first, later, rfl, rfl, rfl⟩

theorem expandAll_total
    (expand : ∀ pattern ∈ patterns, ∃ here, files.expand (m.resolve pattern) = some here) :
    ∃ found, expandAll files m patterns = Except.ok found := by
  induction patterns with
  | nil => exact ⟨[], rfl⟩
  | cons pattern rest ih =>
    obtain ⟨here, first⟩ := expand pattern List.mem_cons_self
    obtain ⟨later, done⟩ := ih fun other behind => expand other (List.mem_cons_of_mem pattern behind)
    refine ⟨here ++ later, ?_⟩
    unfold expandAll
    simp only [first, done]
    rfl

theorem expandAll_each (expanded : expandAll files m patterns = Except.ok found) :
    ∀ pattern ∈ patterns, ∃ here, files.expand (m.resolve pattern) = some here := by
  induction patterns generalizing found with
  | nil =>
    intro pattern member
    cases member
  | cons first rest ih =>
    obtain ⟨here, later, expands, done, _⟩ := expandAll_inv expanded
    intro pattern member
    rcases List.mem_cons.mp member with rfl | behind
    · exact ⟨here, expands⟩
    · exact ih done pattern behind

def Matched (files : Files Id) (m : Manifest) (patterns : List String) (path : String) : Prop :=
  ∃ pattern ∈ patterns, ∃ here, files.expand (m.resolve pattern) = some here ∧ path ∈ here

theorem mem_expandAll (expanded : expandAll files m patterns = Except.ok found) (path : String) :
    path ∈ found ↔ Matched files m patterns path := by
  induction patterns generalizing found with
  | nil =>
    cases expanded
    constructor
    · intro member
      cases member
    · intro matched
      obtain ⟨_, member, _⟩ := matched
      cases member
  | cons first rest ih =>
    obtain ⟨here, later, expands, done, rfl⟩ := expandAll_inv expanded
    rw [List.mem_append, ih done]
    constructor
    · intro member
      rcases member with inside | ⟨pattern, behind, matched⟩
      · exact ⟨first, List.mem_cons_self, here, expands, inside⟩
      · exact ⟨pattern, List.mem_cons_of_mem first behind, matched⟩
    · intro matched
      obtain ⟨pattern, member, other, same, inside⟩ := matched
      rcases List.mem_cons.mp member with rfl | behind
      · rw [expands] at same
        cases same
        exact .inl inside
      · exact .inr ⟨pattern, behind, other, same, inside⟩

theorem inOrder_iff {one two : String} : inOrder one two = true ↔ one ≤ two := by
  rw [inOrder, Bool.not_eq_true', decide_eq_false_iff_not, String.not_lt]

theorem inOrder_trans (one two three : String) (first : inOrder one two = true)
    (second : inOrder two three = true) : inOrder one three = true :=
  inOrder_iff.mpr (String.le_trans (inOrder_iff.mp first) (inOrder_iff.mp second))

theorem inOrder_total (one two : String) : (inOrder one two || inOrder two one) = true := by
  rw [Bool.or_eq_true, inOrder_iff, inOrder_iff]
  exact String.le_total one two

namespace Findings

variable {path : String} {paths : List String}

@[simp]
theorem mem_add {found : Findings} {other : String} :
    other ∈ (found.add path).paths ↔ other ∈ found.paths ∨ other = path := by
  unfold add
  split
  · rename_i known
    rw [found.recorded] at known
    exact ⟨.inl, fun given => given.elim id (· ▸ known)⟩
  · rw [List.mem_append, List.mem_singleton]

@[simp]
theorem mem_addAll {found : Findings} {other : String} :
    other ∈ (paths.foldl add found).paths ↔ other ∈ found.paths ∨ other ∈ paths := by
  induction paths generalizing found with
  | nil => exact (or_iff_left List.not_mem_nil).symm
  | cons path paths ih => rw [List.foldl_cons, ih, mem_add, List.mem_cons, or_assoc]

-- No path was found twice, so that sorting what was found leaves each but once.
theorem sorted (found : Findings) :
    found.paths.mergeSort inOrder = Files.sortedSet found.paths := by
  have ascending := List.pairwise_mergeSort inOrder_trans inOrder_total found.paths
  have distinct := (List.mergeSort_perm found.paths inOrder).nodup_iff.mpr found.distinct
  refine List.Pairwise.eq_of_mem_iff ?_ (Files.sortedSet_ordered found.paths) ?_
  · refine (ascending.and distinct).imp ?_
    rintro one two ⟨ordered, differ⟩
    apply String.not_le.mp
    intro above
    exact differ (String.le_antisymm (inOrder_iff.mp ordered) above)
  · intro path
    rw [List.mem_mergeSort, Files.mem_sortedSet]

end Findings

theorem gather_eq (files : Files Id) (m : Manifest) (patterns : List String) (found : Findings) :
    gather files m patterns found =
      (expandAll files m patterns).map fun paths => (paths.foldl Findings.add found).paths := by
  induction patterns generalizing found with
  | nil => rfl
  | cons pattern rest ih =>
    unfold gather expandAll
    cases files.expand (m.resolve pattern) with
    | none => rfl
    | some paths =>
      refine (ih _).trans ?_
      cases expandAll files m rest with
      | error failure => rfl
      | ok later =>
        exact congrArg (fun found : Findings => Except.ok found.paths) List.foldl_append.symm

-- The sorted set of all matches, which the loop with its seen paths and its sorting comes to.
theorem fixturePaths_eq (files : Files Id) (m : Manifest) :
    fixturePaths files (some m) = (expandAll files m m.fixtures).map Files.sortedSet := by
  simp only [fixturePaths, gather_eq]
  cases expandAll files m m.fixtures with
  | error failure => rfl
  | ok found =>
    refine congrArg Except.ok ((Findings.sorted _).trans ?_)
    apply Files.sortedSet_congr
    intro path
    rw [Findings.mem_addAll]
    exact or_iff_right List.not_mem_nil

theorem fixturePaths_ok {paths : List String} : fixturePaths files (some m) = Except.ok paths ↔
    ∃ found, expandAll files m m.fixtures = Except.ok found ∧ paths = Files.sortedSet found := by
  rw [fixturePaths_eq]
  cases expandAll files m m.fixtures with
  | error failure => exact ⟨fun listed => (by cases listed), fun ⟨_, listed, _⟩ => (by cases listed)⟩
  | ok found =>
    constructor
    · intro listed
      cases listed
      exact ⟨found, rfl, rfl⟩
    · rintro ⟨_, same, rfl⟩
      cases same
      rfl

theorem fixture_paths_sorted_set (files : Files Id) (m : Manifest) (paths : List String)
    (listed : fixturePaths files (some m) = Except.ok paths) :
    paths.Pairwise (fun a b => Text.bytesOf a < Text.bytesOf b) ∧
      (∀ path, path ∈ paths ↔ ∃ pattern ∈ m.fixtures, ∃ here,
        files.expand (m.resolve pattern) = some here ∧ path ∈ here) ∧
      ∀ patterns : List String, (∀ pattern, pattern ∈ patterns ↔ pattern ∈ m.fixtures) →
        fixturePaths files (some { m with fixtures := patterns }) = Except.ok paths := by
  obtain ⟨found, expanded, rfl⟩ := fixturePaths_ok.mp listed
  refine ⟨?_, ?_, ?_⟩
  · exact (Files.sortedSet_ordered found).imp Text.bytesOf_lt
  · intro path
    rw [Files.mem_sortedSet]
    exact mem_expandAll expanded path
  · intro patterns same
    have each : ∀ pattern ∈ patterns, ∃ here,
        files.expand ({ m with fixtures := patterns }.resolve pattern) = some here :=
      fun pattern member => expandAll_each expanded pattern ((same pattern).mp member)
    obtain ⟨other, done⟩ := expandAll_total each
    refine fixturePaths_ok.mpr ⟨other, done, ?_⟩
    apply Files.sortedSet_congr
    intro path
    rw [mem_expandAll done, mem_expandAll expanded]
    constructor
    · intro matched
      obtain ⟨pattern, member, here⟩ := matched
      exact ⟨pattern, (same pattern).mpr member, here⟩
    · intro matched
      obtain ⟨pattern, member, here⟩ := matched
      exact ⟨pattern, (same pattern).mp member, here⟩

-- Equality of results is not decidable as it stands; that of what they hold is.
theorem ok_of_toOption {ε α : Type} {result : Except ε α} {value : α}
    (given : result.toOption = some value) : result = Except.ok value := by
  cases result with
  | error failure => cases given
  | ok other =>
    cases given
    rfl

def suiteTree : FileTree :=
  .directory [("p", .directory [("b.yml", .file []), ("a.yml", .file []), ("s", .directory [])]),
    ("q", .directory [("c.yml", .file [])])]

def suiteManifest : Manifest where
  path := "/p/minilang.yml"
  name := "n"
  main := ""
  undefined := ""
  fixtures := ["b.*", "*.yml", "/q/[c]*"]

theorem fixture_paths_sorted_set_overlap :
    fixturePaths (suiteTree.files "/") (some suiteManifest) =
        Except.ok ["/p/a.yml", "/p/b.yml", "/q/c.yml"] ∧
      fixturePaths (suiteTree.files "/")
          (some { suiteManifest with fixtures := ["/q/[c]*", "*.yml", "*.yml", "b.*"] }) =
        Except.ok ["/p/a.yml", "/p/b.yml", "/q/c.yml"] := by
  have listed : fixturePaths (suiteTree.files "/") (some suiteManifest) =
      Except.ok ["/p/a.yml", "/p/b.yml", "/q/c.yml"] := by
    have expanded : expandAll (suiteTree.files "/") suiteManifest suiteManifest.fixtures =
        Except.ok ["/p/b.yml", "/p/a.yml", "/p/b.yml", "/q/c.yml"] :=
      ok_of_toOption (by decide +kernel)
    exact fixturePaths_ok.mpr ⟨_, expanded, by decide +kernel⟩
  refine ⟨listed, (fixture_paths_sorted_set _ suiteManifest _ listed).2.2 _ ?_⟩
  intro pattern
  simp only [suiteManifest, List.mem_cons, List.not_mem_nil, or_false]
  tauto

end Manifest

end Minilang
