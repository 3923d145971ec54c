import Minilang.Proofs.OriginToken
import Minilang.Proofs.RunFailure
import Minilang.Proofs.SourcePosition
import Minilang.Proofs.ViablePrefix

namespace Minilang

-- A name is shown as it is: the table of edges starts with the printable part of ASCII, and
-- no character of a word needs an escape.
theorem foldl_edges {code : Nat} {edges : List Nat} (beyond : ∀ edge ∈ edges, code < edge)
    (below : Bool) :
    edges.foldl (fun below edge => if edge ≤ code then !below else below) below = below := by
  induction edges with
  | nil => rfl
  | cons edge edges ih =>
    obtain ⟨first, later⟩ := List.forall_mem_cons.mp beyond
    rw [List.foldl_cons, if_neg (by omega), ih later]

theorem printable_ascii {code : Nat} (low : 0x20 ≤ code) (high : code < 0x7f) :
    Text.isPrintable code := by
  have first : Text.printableEdges.toList = 0x20 :: Text.printableEdges.toList.tail := rfl
  have far : Text.printableEdges.toList.tail.all (0x7f ≤ ·) = true := by decide +kernel
  rw [Text.isPrintable, ← Array.foldl_toList, first, List.foldl_cons, if_pos low]
  refine foldl_edges ?_ true
  intro edge member
  have least := List.all_eq_true.mp far edge member
  exact Nat.lt_of_lt_of_le high (by simpa using least)

theorem quoteChar_word {c : Char} (word : isWordChar c) : Text.quoteChar '"' c = [c] := by
  have plain : c ≠ '"' ∧ c ≠ '\\' := by
    constructor <;> rintro rfl <;> exact absurd word (by decide)
  obtain ⟨low, high⟩ := word_bounds word
  have printable := printable_ascii (Nat.le_trans (by decide) low) (Nat.lt_of_le_of_lt high (by decide))
  simp [Text.quoteChar, plain, printable]

theorem quoted_word (letters : ∀ c ∈ name.toList, isWordChar c) :
    Text.quoted name = "\"" ++ name ++ "\"" := by
  have same : name.toList.flatMap (Text.quoteChar '"') = name.toList := by
    rw [List.flatMap_congr fun c member => quoteChar_word (letters c member),
      List.flatMap_singleton']
  rw [Text.quoted, same, ← String.toList_inj]
  simp

theorem Token.StartsAt.byte {t : Token} (starts : t.StartsAt source offset)
    (spelling : t.lexeme = lexemeOf [b]) (ascii : b < 128) : source[offset]? = some b := by
  obtain ⟨rest, same⟩ := starts.2
  rw [spelling, bytesOf_lexeme (by simpa using ascii)] at same
  have first := congrArg List.head? same
  simpa using first.symm

inductive Marks (source : List UInt8) (left : Option Machine) (offset : Nat) : Failure → Prop where
  | foreign (found : source[offset]? = some b) (outside : Alphabet.contains b = false)
      (first : ∀ c ∈ source.take offset, Alphabet.contains c) : Marks source left offset (.lex e)
  | unexpected (inside : e.atEnd = false) (scanned : Token.scan source = .ok tokens)
      (member : t ∈ tokens) (starts : t.StartsAt source offset) (found : t.lexeme = e.found) :
      Marks source left offset (.parse e)
  | ended (behind : e.atEnd = true) (scanned : Token.scan source = .ok tokens)
      (last : tokens.getLast? = some t) (starts : t.StartsAt source offset) :
      Marks source left offset (.parse e)
  | unbound (kind : e.kind = .undefinedVariable) (scanned : Token.scan source = .ok tokens)
      (member : t ∈ tokens) (starts : t.StartsAt source offset) (identifier : t.kind = .identifier)
      (message : e.message = "undefined variable \"" ++ t.lexeme ++ "\"")
      (ran : left = some m) (free : m.store.lookup? t.lexeme = none) :
      Marks source left offset (.runtime e)
  | division (kind : e.kind = .divisionByZero) (message : e.message = "division by zero")
      (slash : source[offset]? = some 47) : Marks source left offset (.runtime e)
  | modulo (kind : e.kind = .divisionByZero) (message : e.message = "modulo by zero")
      (percent : source[offset]? = some 37) : Marks source left offset (.runtime e)

theorem raised_marks (scanned : Token.scan source = .ok tokens) (rooted : node.RootedIn tokens)
    (raises : Raises mode m.store node (.runtime e)) :
    ∃ offset, e.position.Denotes source offset ∧ Marks source (some m) offset (.runtime e) := by
  cases raises with
  | @unbound name origin free strict =>
    obtain ⟨member, kind, rfl⟩ := rooted
    obtain ⟨offset, starts⟩ := Token.scan_starts scanned member
    rw [Token.scan_eq] at scanned
    have letters := ((Token.scanAt_valid scanned _ member).identifier kind).1.2.1
    refine ⟨offset, starts.1, .unbound rfl scanned member starts kind ?_ rfl free⟩
    rw [quoted_word letters, ← String.append_assoc, ← String.append_assoc]
    rfl
  | division =>
    obtain ⟨member, _, lexeme⟩ := rooted
    obtain ⟨offset, starts⟩ := Token.scan_starts scanned member
    exact ⟨offset, starts.1, .division rfl rfl (starts.byte lexeme (by decide))⟩
  | modulo =>
    obtain ⟨member, _, lexeme⟩ := rooted
    obtain ⟨offset, starts⟩ := Token.scan_starts scanned member
    exact ⟨offset, starts.1, .modulo rfl rfl (starts.byte lexeme (by decide))⟩

theorem rejected_marks (scanned : Token.scan source = .ok tokens)
    (rejected : Parse.program tokens = .error e) :
    ∃ offset, e.position.Denotes source offset ∧ Marks source left offset (.parse e) := by
  cases ended : e.atEnd with
  | false =>
    obtain ⟨k, t, found, _, _, place, text⟩ := Parse.rejected_inside rejected ended
    have member := List.mem_of_getElem? found
    obtain ⟨offset, starts⟩ := Token.scan_starts scanned member
    exact ⟨offset, place ▸ starts.1, .unexpected ended scanned member starts text.symm⟩
  | true =>
    obtain ⟨_, t, last, place⟩ := Parse.rejected_at_end rejected ended
    obtain ⟨offset, starts⟩ := Token.scan_starts scanned (List.mem_of_getLast? last)
    exact ⟨offset, place ▸ starts.1, .ended ended scanned last starts⟩

theorem stopped_marks (scanned : Token.scan source = .ok tokens)
    (parsed : Parse.program tokens = .ok body)
    (ran : Ends options body (.start .empty none) (some fault) after) :
    ∃ e offset, fault = .runtime e ∧ e.position.Denotes source offset ∧
      Marks source (some after) offset (.runtime e) := by
  cases ran.stops with
  | @evaluation e store fault m member failed =>
    obtain ⟨node, inside, raises⟩ := eval_raises failed
    have readable := source_readable scanned parsed
    obtain ⟨error, rfl⟩ :=
      (Stmt.AllReadable.expressions body readable e member).runtime inside raises
    have rooted := (Parse.program_derived parsed).rooted e member node inside
    obtain ⟨offset, denotes, marks⟩ := raised_marks scanned rooted raises
    exact ⟨error, offset, rfl, denotes, marks⟩
  | output full => cases (ran.steps.unlimited rfl).symm.trans full

theorem Marks.diagnosed {failure : Failure} {p : Position} (denotes : p.Denotes source offset)
    (marks : Marks source left offset failure.root)
    (shown : failure.diagnose = some ⟨stage, message, path, p.row + 1, p.column + 1⟩) :
    ∃ d offset, failure.diagnose = some d ∧ 1 ≤ d.line ∧ 1 ≤ d.column ∧
      Position.Denotes ⟨d.line - 1, d.column - 1⟩ source offset ∧
      Marks source left offset failure.root := by
  obtain ⟨row, column⟩ := denotes.least
  refine ⟨_, offset, shown, ?_, ?_, ?_, marks⟩
  · exact Int.le_add_of_nonneg_left row
  · exact Int.le_add_of_nonneg_left column
  · simpa only [Int.add_sub_cancel] using denotes

theorem diagnostics_point_at_causes (options : RunOptions) (bound : Nat) (path : String)
    (source : List UInt8) (ending : Ending) (failure : Failure)
    (ended : runSource options bound none path source = some ending)
    (failed : ending.failure = some failure) :
    ∃ d offset, failure.diagnose = some d ∧ 1 ≤ d.line ∧ 1 ≤ d.column ∧
      Position.Denotes ⟨d.line - 1, d.column - 1⟩ source offset ∧
      Marks source ending.machine offset failure.root := by
  cases runSource_runsTo ended with
  | unscanned scanned =>
    cases failed
    obtain ⟨offset, denotes, ⟨b, found, outside⟩, first, _⟩ := Token.scan_foreign scanned
    exact Marks.diagnosed denotes (.foreign found outside first) rfl
  | unparsed scanned rejected =>
    cases failed
    obtain ⟨offset, denotes, marks⟩ := rejected_marks scanned rejected
    exact Marks.diagnosed denotes marks rfl
  | @ran tokens body outcome after scanned parsed ran =>
    cases outcome with
    | none => cases failed
    | some fault =>
      cases failed
      obtain ⟨e, offset, rfl, denotes, marks⟩ := stopped_marks scanned parsed ran
      exact Marks.diagnosed denotes marks rfl

theorem diagnostics_point_at_causes_division :
    let source : List UInt8 := [49, 59, 10, 32, 49, 47, 48, 59]
    let e : RuntimeError := ⟨⟨1, 2⟩, .divisionByZero, "division by zero", ""⟩
    let ending : Ending := ⟨some (.start .empty none), some (.inProgram "p" (.runtime e))⟩
    runSource {} 0 none "p" source = some ending ∧
    ∃ d offset, (Failure.inProgram "p" (.runtime e)).diagnose = some d ∧ 1 ≤ d.line ∧
      1 ≤ d.column ∧ Position.Denotes ⟨d.line - 1, d.column - 1⟩ source offset ∧
      Marks source ending.machine offset (.runtime e) := by
  intro source e ending
  have ran : runSource {} 0 none "p" source = some ending := by rfl
  exact ⟨ran, diagnostics_point_at_causes {} 0 "p" source ending _ ran rfl⟩

end Minilang
