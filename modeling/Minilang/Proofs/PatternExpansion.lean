import Minilang.Proofs.FixturePaths
import Minilang.Proofs.Lexeme
import Minilang.Proofs.PathPieces
import Minilang.Proofs.PatternChunks

namespace Minilang

namespace Pattern

open Minilang.Path

def bareSlashes : Spot → Bytes → Bool
  | _, [] => true
  | s, b :: p => (b != byte '/' || s == .outside) && bareSlashes (s.next b) p

theorem bareSlashes_append (s : Spot) (p q : Bytes) :
    bareSlashes s (p ++ q) = (bareSlashes s p && bareSlashes (spot s p) q) := by
  induction p generalizing s with
  | nil => rfl
  | cons b p ih =>
    rw [List.cons_append, bareSlashes, bareSlashes, ih, Bool.and_assoc]
    rfl

theorem bareSlashes_slash (given : bareSlashes s (byte '/' :: p)) :
    s = .outside ∧ bareSlashes .outside p := by
  rw [bareSlashes, Bool.and_eq_true] at given
  have outside : s = .outside := by simpa using given.1
  subst outside
  exact ⟨rfl, given.2⟩

def encode (cs : List Char) : Bytes := cs.flatMap String.utf8EncodeChar

@[simp]
theorem encode_append (cs ds : List Char) : encode (cs ++ ds) = encode cs ++ encode ds :=
  List.flatMap_append

@[simp]
theorem encode_slash (cs : List Char) : encode ('/' :: cs) = byte '/' :: encode cs := rfl

theorem encode_toList (text : String) : encode text.toList = Text.bytesOf text :=
  (bytesOf_toList text).symm

-- Directories are listed for each piece of a pattern, so each piece is matched on its own.
def Sound (cs : List Char) : Prop := ∀ piece ∈ pieces cs, WellFormed (encode piece)

theorem sound_single (free : '/' ∉ piece) : Sound piece ↔ WellFormed (encode piece) := by
  rw [Sound, pieces_single free, List.forall_mem_singleton]

theorem sound_append (before after : List Char) :
    Sound (before ++ '/' :: after) ↔ Sound before ∧ Sound after := by
  rw [Sound, pieces_append, List.forall_mem_append]
  rfl

theorem Sound.wellFormed (sound : Sound cs) : WellFormed (encode cs) := by
  induction cs using pieces_induction with
  | single piece free => exact (sound_single free).mp sound
  | more piece rest free ih =>
    obtain ⟨first, later⟩ := (sound_append piece rest).mp sound
    rw [encode_append, encode_slash]
    exact ((sound_single free).mp first).append (.plain (by decide) (by decide) (ih later))

-- The converse holds if no slash is part of a bracket or of an escape.
theorem sound_of_bareSlashes (given : WellFormed (encode cs))
    (bare : bareSlashes .outside (encode cs)) : Sound cs := by
  induction cs using pieces_induction with
  | single piece free => exact (sound_single free).mpr given
  | more piece rest free ih =>
    rw [encode_append, encode_slash] at given bare
    rw [bareSlashes_append, Bool.and_eq_true] at bare
    obtain ⟨outside, later⟩ := bareSlashes_slash bare.2
    obtain ⟨first, behind⟩ := given.cut rfl outside
    obtain ⟨_, after⟩ := behind.cut (a := [byte '/']) rfl rfl
    exact (sound_append piece rest).mpr ⟨(sound_single free).mpr first, ih after later⟩

theorem encode_mem {c d : Char} (ascii : d.toNat < 0x80)
    (member : byte d ∈ String.utf8EncodeChar c) : c = d := by
  have encoded := Text.encoded_char c
  have value : (byte d).toNat = d.toNat := UInt8.toNat_ofNat_of_lt (Nat.lt_trans ascii (by decide))
  cases bytes : String.utf8EncodeChar c with
  | nil =>
    rw [bytes] at member
    cases member
  | cons b bs =>
    rw [bytes] at encoded member
    obtain ⟨lead, tail⟩ := encoded.high
    rcases List.mem_cons.mp member with rfl | later
    · apply Char.toNat_inj.mp
      omega
    · have high := tail _ later
      omega

theorem sound_plain (plain : ∀ c ∈ cs, c ≠ '[' ∧ c ≠ '\\') : Sound cs := by
  have read {piece : List Char} (plain : ∀ c ∈ piece, c ≠ '[' ∧ c ≠ '\\') :
      WellFormed (encode piece) := by
    apply wellFormed_plain
    intro b member
    obtain ⟨c, inside, here⟩ := List.mem_flatMap.mp member
    constructor
    · intro same
      subst same
      exact (plain c inside).1 (encode_mem (by decide) here)
    · intro same
      subst same
      exact (plain c inside).2 (encode_mem (by decide) here)
  induction cs using pieces_induction with
  | single piece free => exact (sound_single free).mpr (read plain)
  | more piece rest free ih =>
    rw [List.forall_mem_append, List.forall_mem_cons] at plain
    exact (sound_append piece rest).mpr ⟨(sound_single free).mpr (read plain.1), ih plain.2.2⟩

theorem sound_literal {path : String} (plain : isGeneral path = false) : Sound path.toList := by
  apply sound_plain
  intro c member
  have others := List.any_eq_false.mp plain c member
  simp only [Bool.or_eq_true, beq_iff_eq, not_or] at others
  exact ⟨others.1.2, others.2⟩

theorem sound_clean {path : String} (sound : Sound path.toList) : Sound (clean path).toList := by
  intro piece member
  rcases clean_pieces path piece member with rfl | rfl | old
  · exact .nil
  · show WellFormed [byte '.']
    exact .plain (by decide) (by decide) .nil
  · exact sound piece old

theorem sound_join {base path : String} (above : Sound base.toList) (below : Sound path.toList) :
    Sound (join base path).toList := by
  unfold join
  split
  · split
    · exact sound_plain (by simp)
    · exact sound_clean below
  · apply sound_clean
    rw [String.toList_append, String.toList_append, List.append_assoc]
    exact (sound_append base.toList path.toList).mpr ⟨above, below⟩

end Pattern

namespace Files

open Minilang.Pattern Minilang.Path

variable {files : Files Id} {pattern : String}

theorem matching_total (given : WellFormed (Text.bytesOf pattern)) (directory : String)
    (names : List String) : ∃ found, matching directory pattern names = some found := by
  induction names with
  | nil => exact ⟨[], rfl⟩
  | cons name rest ih =>
    obtain ⟨found, here⟩ := Option.isSome_iff_exists.mp (matches?_isSome given name)
    obtain ⟨more, later⟩ := ih
    rw [matching, here, later]
    exact ⟨_, rfl⟩

theorem matchingIn_total (given : WellFormed (Text.bytesOf pattern)) (files : Files Id)
    (directory : String) : ∃ found, matchingIn files directory pattern = some found := by
  obtain ⟨found, listed⟩ := matching_total given directory (sortedSet (files.names directory))
  cases kind : files.kind directory with
  | error cause => exact ⟨[], by simp only [matchingIn, kind]; rfl⟩
  | ok what =>
    cases what with
    | regular => exact ⟨[], by simp only [matchingIn, kind]; rfl⟩
    | directory => exact ⟨found, by simp only [matchingIn, kind]; exact listed⟩

theorem matchingInAll_total (given : WellFormed (Text.bytesOf pattern)) (files : Files Id)
    (directories : List String) :
    ∃ found, matchingInAll files pattern directories = some found := by
  induction directories with
  | nil => exact ⟨[], rfl⟩
  | cons directory rest ih =>
    obtain ⟨found, here⟩ := matchingIn_total given files directory
    obtain ⟨more, later⟩ := ih
    exact ⟨found ++ more, by simp only [matchingInAll, here, later]; rfl⟩

theorem patternDirectory_slash (above : List Char) :
    patternDirectory (String.ofList (above ++ ['/'])) =
      if above = [] then "/" else String.ofList above := by
  unfold patternDirectory
  cases above with
  | nil => rfl
  | cons c cs =>
    have filled : String.ofList (c :: cs ++ ['/']) ≠ "" := by simp
    have more : String.ofList (c :: cs ++ ['/']) ≠ "/" := by
      intro same
      have chars := congrArg String.toList same
      simp at chars
    rw [if_neg filled, if_neg more, if_neg (by simp), String.toList_ofList, List.dropLast_concat]

theorem sound_parts (sound : Sound pattern.toList) :
    WellFormed (Text.bytesOf (split pattern).2) ∧
      (isGeneral (patternDirectory (split pattern).1) = true →
        Sound (patternDirectory (split pattern).1).toList ∧
          (patternDirectory (split pattern).1).length < pattern.length) := by
  obtain ⟨d, n, parts, whole, free, none | ⟨above, rfl⟩⟩ := split_parts pattern
  · subst none
    rw [parts]
    rw [whole] at sound
    constructor
    · rw [bytesOf_ofList]
      exact (sound_single free).mp sound
    · intro general
      have only : isGeneral "." = false := by decide
      exact absurd general (Bool.eq_false_iff.mp only)
  · rw [parts]
    rw [List.append_assoc] at whole
    rw [whole] at sound
    obtain ⟨pieces, name⟩ := (sound_append above n).mp sound
    constructor
    · rw [bytesOf_ofList]
      exact (sound_single free).mp name
    · rw [patternDirectory_slash]
      split
      · intro general
        exact absurd general (by decide)
      · intro _
        rw [String.toList_ofList, String.length_ofList, ← String.length_toList, whole,
          List.length_append, List.length_append]
        exact ⟨pieces, by simp only [List.length_singleton]; omega⟩

theorem expandWithin_succ (files : Files Id) (n : Nat) (pattern : String) :
    expandWithin files (n + 1) pattern =
      if (matches? pattern "").isNone then none
      else if !isGeneral pattern then
        match files.kind pattern with
        | .ok _ => some [pattern]
        | .error _ => some []
      else if !isGeneral (patternDirectory (split pattern).1) then
        matchingIn files (patternDirectory (split pattern).1) (split pattern).2
      else
        match expandWithin files n (patternDirectory (split pattern).1) with
        | none => none
        | some directories => matchingInAll files (split pattern).2 directories := by
  rw [expandWithin]
  rfl

-- The directory of a pattern is shorter than it, so the bound is never reached.
theorem expandWithin_total (sound : Sound pattern.toList) (bound : pattern.length < n)
    (files : Files Id) : ∃ found, expandWithin files n pattern = some found := by
  induction n generalizing pattern with
  | zero => omega
  | succ n ih =>
    have whole : WellFormed (Text.bytesOf pattern) := encode_toList pattern ▸ sound.wellFormed
    obtain ⟨name, directory⟩ := sound_parts sound
    rw [expandWithin_succ]
    split
    · rename_i malformed
      have read := matches?_isSome whole ""
      rw [Option.isNone_iff_eq_none.mp malformed] at read
      cases read
    · split
      · cases files.kind pattern with
        | ok => exact ⟨_, rfl⟩
        | error => exact ⟨_, rfl⟩
      · split
        · exact matchingIn_total name files _
        · rename_i general
          obtain ⟨pieces, shorter⟩ := directory (by simpa using general)
          obtain ⟨directories, found⟩ := ih pieces (by omega)
          rw [found]
          exact matchingInAll_total name files directories

theorem expand_total (sound : Sound pattern.toList) (files : Files Id) :
    ∃ found, files.expand pattern = some found :=
  expandWithin_total sound (Nat.lt_succ_self _) files

end Files

namespace Manifest

open Pattern

variable {m : Manifest}

theorem checked_ok {given : Manifest} (accepted : given.checked = .ok m) :
    given = m ∧ m.issues = [] := by
  unfold checked at accepted
  split at accepted
  · rename_i clear
    cases accepted
    exact ⟨rfl, List.isEmpty_iff.mp clear⟩
  · cases accepted

theorem checked_again {raw : Manifest} (given : raw.checked = .ok m) : m.checked = .ok m := by
  obtain ⟨rfl, -⟩ := checked_ok given
  exact given

theorem ofBytes_fields {place : String} {bytes : List UInt8} (read : ofBytes place bytes = .ok m) :
    ∃ raw, Yaml.decode {} (Yaml.Decode.record "driver.manifestFile" fields) bytes = .ok (some raw) ∧
      (ofFields place raw).checked = .ok m := by
  unfold ofBytes at read
  split at read
  · cases read
  · cases read
  · rename_i raw decoded
    exact ⟨raw, decoded, read⟩

theorem ofBytes_checked {place : String} {bytes : List UInt8} (read : ofBytes place bytes = .ok m) :
    m.checked = .ok m := by
  obtain ⟨raw, -, accepted⟩ := ofBytes_fields read
  exact checked_again accepted

theorem load_read {disk : Files Id} {path : String} (loaded : load disk path = Except.ok m) :
    ∃ bytes, disk.contents (Path.absolute disk.workingDirectory path) = Except.ok bytes ∧
      ofBytes (Path.absolute disk.workingDirectory path) bytes = .ok m := by
  unfold load at loaded
  dsimp only at loaded
  split at loaded
  · cases loaded
  · cases held : disk.contents (Path.absolute disk.workingDirectory path) with
    | ok bytes =>
      simp only [held] at loaded
      exact ⟨bytes, rfl, loaded⟩
    | error cause =>
      simp only [held] at loaded
      cases cause <;> cases loaded

theorem load_checked {disk : Files Id} {path : String} (loaded : load disk path = Except.ok m) :
    m.checked = .ok m := by
  obtain ⟨bytes, -, read⟩ := load_read loaded
  exact ofBytes_checked read

theorem patternIssue_none (index : Nat) (pattern : String) :
    patternIssue index pattern = none ↔ WellFormed (firstChunk (Text.bytesOf pattern)).2.1 := by
  rw [← matches?_nothing]
  unfold patternIssue
  split
  · rename_i read
    exact ⟨fun _ => read, fun _ => rfl⟩
  · rename_i unread
    constructor
    · intro same
      cases same
    · intro read
      exact absurd read unread

theorem checked_patterns (accepted : m.checked = .ok m) :
    ∀ pattern ∈ m.fixtures, WellFormed (firstChunk (Text.bytesOf pattern)).2.1 := by
  have clear := (checked_ok accepted).2
  rw [issues, List.append_eq_nil_iff, List.filterMap_eq_nil_iff] at clear
  intro pattern member
  obtain ⟨i, stands⟩ := List.mem_iff_getElem?.mp member
  have fine : patternIssue i pattern = none :=
    clear.2 (pattern, i) (List.mk_mem_zipIdx_iff_getElem?.mpr stands)
  exact (patternIssue_none i pattern).mp fine

theorem sound_resolve {pattern : String} (plain : isGeneral m.directory = false)
    (sound : Sound pattern.toList) : Sound (m.resolve pattern).toList := by
  unfold resolve
  split
  · exact sound
  · exact sound_join (sound_literal plain) sound

theorem sound_pattern {pattern : String}
    (first : WellFormed (firstChunk (Text.bytesOf pattern)).2.1)
    (rest : WellFormed (firstChunk (Text.bytesOf pattern)).2.2)
    (bare : bareSlashes .outside (Text.bytesOf pattern)) : Sound pattern.toList := by
  have whole := (wellFormed_iff _).mpr ⟨first, rest⟩
  rw [← encode_toList] at whole bare
  exact sound_of_bareSlashes whole bare

-- Validation reads a pattern as one text, where a slash is a byte like others. If what it did not
-- read is well formed, and each slash parts two pieces, the pattern expands among any files.
theorem accepted_patterns_expand (disk : Files Id) (path : String) (m : Manifest)
    (loaded : load disk path = Except.ok m) (plain : isGeneral m.directory = false)
    (unread : ∀ pattern ∈ m.fixtures, WellFormed (firstChunk (Text.bytesOf pattern)).2.2 ∧
      bareSlashes .outside (Text.bytesOf pattern) = true) :
    ∀ files : Files Id, ∃ paths, fixturePaths files (some m) = Except.ok paths := by
  intro files
  have each : ∀ pattern ∈ m.fixtures, ∃ here, files.expand (m.resolve pattern) = some here := by
    intro pattern member
    obtain ⟨rest, bare⟩ := unread pattern member
    have sound := sound_pattern (checked_patterns (load_checked loaded) pattern member) rest bare
    exact Files.expand_total (sound_resolve plain sound) files
  obtain ⟨found, expanded⟩ := expandAll_total each
  exact ⟨_, fixturePaths_ok.mpr ⟨found, expanded, rfl⟩⟩

def projectTree (pattern : String) : FileTree :=
  .directory [("p", .directory [("ab", .file []),
    ("minilang.yml", .file (Text.bytesOf ("name: n\nfixtures: '" ++ pattern ++ "'\n")))])]

def projectWith (pattern : String) : Manifest where
  path := "/p/minilang.yml"
  name := "n"
  main := ""
  undefined := ""
  fixtures := [pattern]

theorem accepted_patterns_expand_brackets :
    load ((projectTree "[^b-d]*/x*[\\]]").files "/") "p/minilang.yml" =
        Except.ok (projectWith "[^b-d]*/x*[\\]]") ∧
      ∃ paths, fixturePaths (suiteTree.files "/") (some (projectWith "[^b-d]*/x*[\\]]")) =
        Except.ok paths := by
  have loaded : load ((projectTree "[^b-d]*/x*[\\]]").files "/") "p/minilang.yml" =
      Except.ok (projectWith "[^b-d]*/x*[\\]]") := ok_of_toOption (by decide +kernel)
  exact ⟨loaded, accepted_patterns_expand _ _ _ loaded (by decide +kernel) (by decide +kernel) _⟩

theorem fixturePaths_malformed {files : Files Id} {pattern : String} {rest : List String}
    (fixtures : m.fixtures = pattern :: rest)
    (malformed : Option.isNone (files.expand (m.resolve pattern)) = true) :
    fixturePaths files (some m) = Except.error (.context ("manifest: fixtures " ++ Text.quoted pattern)
      (.plain "syntax error in pattern")) := by
  rw [fixturePaths_eq, fixtures, expandAll, Option.isNone_iff_eq_none.mp malformed]
  rfl

-- Neither condition can go. A bracket around a slash closes in the whole text, but not in its
-- piece, and one that nothing closes is not read before a name gets to the star in front of it.
theorem accepted_patterns_malformed :
    (load ((projectTree "[a/b]").files "/") "p/minilang.yml" = Except.ok (projectWith "[a/b]") ∧
      isGeneral (projectWith "[a/b]").directory = false ∧
      fixturePaths ((projectTree "[a/b]").files "/") (some (projectWith "[a/b]")) =
        Except.error (.context ("manifest: fixtures " ++ Text.quoted "[a/b]")
          (.plain "syntax error in pattern"))) ∧
    load ((projectTree "a*[").files "/") "p/minilang.yml" = Except.ok (projectWith "a*[") ∧
      isGeneral (projectWith "a*[").directory = false ∧
      fixturePaths ((projectTree "a*[").files "/") (some (projectWith "a*[")) =
        Except.error (.context ("manifest: fixtures " ++ Text.quoted "a*[")
          (.plain "syntax error in pattern")) := by
  refine ⟨⟨ok_of_toOption (by decide +kernel), by decide +kernel, ?_⟩,
    ok_of_toOption (by decide +kernel), by decide +kernel, ?_⟩
  · exact fixturePaths_malformed rfl (by decide +kernel)
  · exact fixturePaths_malformed rfl (by decide +kernel)

end Manifest

end Minilang
