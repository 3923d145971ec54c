import Mathlib.Data.List.Forall2
import Minilang.CommandLine.Basic

namespace Minilang.Flag

def Nameable (name : String) : Prop :=
  ∃ first rest, name.toList = first :: rest ∧ first ≠ '-' ∧ '=' ∉ name.toList

structure Distinct (known : List Flag) : Prop where
  names : (known.map Flag.name).Nodup
  nameable : ∀ flag ∈ known, Nameable flag.name

-- One flag as it is written, with what it says: alone, with its value behind an equals sign, or
-- with its value as the next argument. Only a switch can stand alone, and only a switch never
-- takes the next argument. The value that is an argument of its own may be any text.
inductive Written (known : List Flag) : List String → String × String → Prop where
  | switch (flag : Flag) (dashes : String) (member : flag ∈ known) (one : dashes = "-" ∨ dashes = "--")
      (kind : flag.isSwitch = true) : Written known [dashes ++ flag.name] (flag.name, "true")
  | joined (flag : Flag) (dashes value : String) (member : flag ∈ known)
      (one : dashes = "-" ∨ dashes = "--")
      (fits : flag.isSwitch = true → (boolean? value).isSome = true) :
      Written known [dashes ++ flag.name ++ "=" ++ value] (flag.name, value)
  | apart (flag : Flag) (dashes value : String) (member : flag ∈ known)
      (one : dashes = "-" ∨ dashes = "--") (kind : flag.isSwitch = false) :
      Written known [dashes ++ flag.name, value] (flag.name, value)

def Positional (argument : String) : Prop :=
  argument = "" ∨ argument = "-" ∨ argument.toList.head? ≠ some '-'

inductive Interleaved : List (List String) → List String → List String → Prop where
  | nil : Interleaved [] [] []
  | flag (unit : List String) : Interleaved units others arguments →
      Interleaved (unit :: units) others (unit ++ arguments)
  | other (argument : String) : Interleaved units others arguments →
      Interleaved units (argument :: others) (argument :: arguments)

variable {known : List Flag} {name : String} {argument : String} {flag : Flag}

theorem Distinct.find? (distinct : Distinct known) (member : flag ∈ known) :
    known.find? (·.name == flag.name) = some flag := by
  have names := distinct.names
  clear distinct
  induction known with
  | nil => cases member
  | cons first rest ih =>
    obtain ⟨fresh, later⟩ := List.nodup_cons.mp names
    rcases List.mem_cons.mp member with rfl | behind
    · simp
    · have other : first.name ≠ flag.name := by
        intro same
        apply fresh
        rw [same]
        exact List.mem_map_of_mem behind
      rw [List.find?_cons_of_neg (by simpa using other)]
      exact ih behind later

theorem read_positional (positional : Positional argument) : read argument = .positional := by
  unfold read
  rcases positional with rfl | rfl | other
  · rfl
  · rfl
  · split
    · rename_i chars
      simp [chars] at other
    · rename_i chars
      simp [chars] at other
    · rename_i chars
      simp [chars] at other
    · rfl

theorem named_eq (fits : Nameable name) (tail : List Char)
    (start : ∀ c, tail.head? = some c → c = '=') :
    named (name.toList ++ tail) =
      .flag name (if tail = [] then none else some (String.ofList tail.tail)) := by
  obtain ⟨first, rest, chars, dash, equals⟩ := fits
  obtain rfl : name = String.ofList (first :: rest) := by rw [← chars, String.ofList_toList]
  rw [String.toList_ofList] at equals ⊢
  have inside : ∀ c ∈ rest, (c != '=') = true := by
    intro c member
    have other : c ≠ '=' := fun same => equals (same ▸ List.mem_cons_of_mem first member)
    simpa using other
  have head : (first == '-' || first == '=') = false := by
    have other : first ≠ '=' := fun same => equals (same ▸ List.mem_cons_self)
    simp [dash, other]
  rw [List.cons_append, named, head, List.takeWhile_append_of_pos inside,
    List.dropWhile_append_of_pos inside]
  cases tail with
  | nil => simp
  | cons c value =>
    obtain rfl := start c rfl
    simp

theorem read_dashed (fits : Nameable name) {dashes : String} (one : dashes = "-" ∨ dashes = "--")
    {tail : List Char} (chars : argument.toList = dashes.toList ++ name.toList ++ tail) :
    read argument = named (name.toList ++ tail) := by
  obtain ⟨first, rest, spelled, dash, -⟩ := fits
  unfold read
  rw [chars, spelled]
  rcases one with rfl | rfl
  · have split : "-".toList ++ first :: rest ++ tail = '-' :: first :: (rest ++ tail) := rfl
    rw [split]
    simp [dash]
  · rfl

theorem read_alone (fits : Nameable name) {dashes : String} (one : dashes = "-" ∨ dashes = "--") :
    read (dashes ++ name) = .flag name none := by
  have chars : (dashes ++ name).toList = dashes.toList ++ name.toList ++ [] := by simp
  rw [read_dashed fits one chars, named_eq fits]
  · rfl
  · intro c none
    cases none

theorem read_joined (fits : Nameable name) {dashes : String} (one : dashes = "-" ∨ dashes = "--")
    (value : String) : read (dashes ++ name ++ "=" ++ value) = .flag name (some value) := by
  have chars : (dashes ++ name ++ "=" ++ value).toList =
      dashes.toList ++ name.toList ++ '=' :: value.toList := by simp
  rw [read_dashed fits one chars, named_eq fits]
  · simp
  · intro c same
    cases same
    rfl

theorem parse_written (distinct : Distinct known) {unit : List String} {given : String × String}
    (written : Written known unit given) (values : FlagValues) (rest : List String) :
    parse known values (unit ++ rest) = parse known (given :: values) rest := by
  cases written with
  | switch flag dashes member one kind =>
    rw [List.singleton_append, parse, read_alone (distinct.nameable flag member) one]
    simp only [distinct.find? member, kind, if_true]
    rfl
  | joined flag dashes value member one fits =>
    rw [List.singleton_append, parse, read_joined (distinct.nameable flag member) one]
    simp only [distinct.find? member]
    cases kind : flag.isSwitch with
    | true => simp [fits kind]
    | false => simp
  | apart flag dashes value member one kind =>
    rw [List.cons_append, List.singleton_append, parse,
      read_alone (distinct.nameable flag member) one]
    simp only [distinct.find? member, kind]
    rfl

theorem parse_positional (positional : Positional argument) (values : FlagValues)
    (rest : List String) : parse known values (argument :: rest) = .ok (values, argument :: rest) := by
  rw [parse, read_positional positional]

theorem parseWithin_written (distinct : Distinct known) {unit : List String}
    {given : String × String} (written : Written known unit given) (n : Nat) (values : FlagValues)
    (rest : List String) : parseWithin known (n + 1) values (unit ++ rest) =
      parseWithin known (n + 1) (given :: values) rest := by
  rw [parseWithin, parseWithin, parse_written distinct written]

theorem parseWithin_positional (positional : Positional argument) (n : Nat) (values : FlagValues)
    (rest : List String) : parseWithin known (n + 1) values (argument :: rest) =
      (parseWithin known n values rest).map fun (values, others) => (values, argument :: others) := by
  rw [parseWithin, parse_positional positional]

variable {units : List (List String)} {given : FlagValues} {others arguments : List String}

-- Every round but the last keeps an argument, so one round more than there are arguments is
-- enough. More rounds change nothing.
theorem parseWithin_interleaved (distinct : Distinct known)
    (mixed : Interleaved units others arguments) (written : List.Forall₂ (Written known) units given)
    (positional : ∀ argument ∈ others, Positional argument) {n : Nat}
    (enough : arguments.length < n) (values : FlagValues) :
    parseWithin known n values arguments = .ok (given.reverse ++ values, others) := by
  induction mixed generalizing n values given with
  | nil =>
    cases written
    obtain ⟨n, rfl⟩ := Nat.exists_eq_succ_of_ne_zero (Nat.ne_of_gt enough)
    rfl
  | flag unit _ ih =>
    obtain ⟨n, rfl⟩ := Nat.exists_eq_succ_of_ne_zero (Nat.ne_of_gt (Nat.zero_lt_of_lt enough))
    cases written with
    | cons first later =>
      rw [parseWithin_written distinct first, ih later positional (by simp at enough; omega)]
      simp
  | other argument _ ih =>
    obtain ⟨n, rfl⟩ := Nat.exists_eq_succ_of_ne_zero (Nat.ne_of_gt (Nat.zero_lt_of_lt enough))
    obtain ⟨here, behind⟩ := List.forall_mem_cons.mp positional
    rw [parseWithin_positional here, ih written behind (Nat.lt_of_succ_lt_succ enough)]
    rfl

theorem parseAll_interleaved (distinct : Distinct known) (mixed : Interleaved units others arguments)
    (written : List.Forall₂ (Written known) units given)
    (positional : ∀ argument ∈ others, Positional argument) :
    parseAll known arguments = .ok (given.reverse, others) := by
  unfold parseAll
  rw [parseWithin_interleaved distinct mixed written positional (Nat.lt_succ_self _), List.append_nil]

theorem Interleaved.alone (units : List (List String)) : Interleaved units [] units.flatten := by
  induction units with
  | nil => exact .nil
  | cons unit units ih => exact .flag unit ih

theorem runFlags_distinct : Distinct CommandLine.runFlags where
  names := by decide
  nameable := by
    intro flag member
    simp only [CommandLine.runFlags, List.mem_cons, List.not_mem_nil, or_false] at member
    rcases member with rfl | rfl
    · exact ⟨'u', _, rfl, by decide, by decide⟩
    · exact ⟨'t', _, rfl, by decide, by decide⟩

theorem testFlags_distinct : Distinct CommandLine.testFlags where
  names := by decide
  nameable := by
    intro flag member
    obtain rfl := List.mem_singleton.mp member
    exact ⟨'v', _, rfl, by decide, by decide⟩

-- Flags may stand anywhere among the other arguments of both commands that take flags. No flag
-- takes one of them for its value, and a value that looks like an argument or a flag stays one.
theorem flags_stand_anywhere (known : List Flag)
    (command : known ∈ [CommandLine.runFlags, CommandLine.testFlags])
    (units : List (List String)) (given : FlagValues)
    (written : List.Forall₂ (Written known) units given) (others : List String)
    (positional : ∀ argument ∈ others, Positional argument) (arguments : List String)
    (mixed : Interleaved units others arguments) :
    parseAll known arguments = .ok (given.reverse, others) ∧
      parseAll known units.flatten = .ok (given.reverse, []) ∧
      ∀ rounds, arguments.length < rounds →
        parseWithin known rounds [] arguments = parseAll known arguments := by
  have distinct : Distinct known := by
    simp only [List.mem_cons, List.not_mem_nil, or_false] at command
    rcases command with rfl | rfl
    · exact runFlags_distinct
    · exact testFlags_distinct
  have parsed := parseAll_interleaved distinct mixed written positional
  refine ⟨parsed, ?_, ?_⟩
  · apply parseAll_interleaved distinct (.alone units) written
    intro argument none
    cases none
  · intro rounds enough
    rw [parsed, parseWithin_interleaved distinct mixed written positional enough, List.append_nil]

theorem flags_stand_anywhere_dash :
    parseAll CommandLine.runFlags ["", "--undefined", "-", "-trace", "-", "a.mini", "--trace=F"] =
        .ok ([("trace", "F"), ("trace", "true"), ("undefined", "-")], ["", "-", "a.mini"]) ∧
      parseAll CommandLine.runFlags ["--undefined", "-", "-trace", "--trace=F"] =
        .ok ([("trace", "F"), ("trace", "true"), ("undefined", "-")], []) := by
  have written : List.Forall₂ (Written CommandLine.runFlags)
      [["--undefined", "-"], ["-trace"], ["--trace=F"]]
      [("undefined", "-"), ("trace", "true"), ("trace", "F")] := by
    refine .cons ?_ (.cons ?_ (.cons ?_ .nil))
    · exact .apart ⟨"undefined", false⟩ "--" "-" (by simp [CommandLine.runFlags]) (.inr rfl) rfl
    · exact .switch ⟨"trace", true⟩ "-" (by simp [CommandLine.runFlags]) (.inl rfl) rfl
    · exact .joined ⟨"trace", true⟩ "--" "F" (by simp [CommandLine.runFlags]) (.inr rfl) fun _ => rfl
  have mixed : Interleaved [["--undefined", "-"], ["-trace"], ["--trace=F"]] ["", "-", "a.mini"]
      ["", "--undefined", "-", "-trace", "-", "a.mini", "--trace=F"] :=
    .other "" (.flag ["--undefined", "-"] (.flag ["-trace"] (.other "-" (.other "a.mini"
      (.flag ["--trace=F"] .nil)))))
  have positional : ∀ argument ∈ ["", "-", "a.mini"], Positional argument := by
    simp [Positional]
  obtain ⟨parsed, alone, -⟩ := flags_stand_anywhere CommandLine.runFlags (by simp) _ _ written _
    positional _ mixed
  exact ⟨parsed, alone⟩

end Minilang.Flag
