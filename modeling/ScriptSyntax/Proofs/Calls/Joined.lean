import ScriptSyntax.Proofs.Calls.Total
import ScriptSyntax.Proofs.Scan.Prolonging

/-! The tokens of two texts with a line feed between them: those of the first, and then those of the
second at other places. -/
namespace ScriptSyntax.Scanner

variable {s s' r : Scanner} {t : Token} {ts us : List Token} {n : Nat}

/-- A scanner that has the same text before it reads the same token. What it read before matters for
the minus of a number alone. -/
theorem next_alike (given : s.next = (.ok t, r)) (rest : s'.rest = s.rest)
    (resumes : s'.previous = s.previous ∨
      s.previous = none ∧ (s'.previous.any endsOperand = false ∨ t.isNegative = false)) :
    ∃ u r', s'.next = (.ok u, r') ∧ u.unplaced = t.unplaced ∧ r'.rest = r.rest ∧
      r'.previous = r.previous := by
  obtain ⟨gap, left, split, skipped, inked, ok, -, -, rfl⟩ := next_reads given
  have same : read s'.previous left = read s.previous left := by
    rcases resumes with same | ⟨first, positive⟩
    · rw [same]
    · rw [first] at ok ⊢
      exact read_previous ok positive
  have read := next_of_read (t := ⟨t.kind, t.value, s'.point.advance gap,
    (s'.point.advance gap).advance (read s'.previous left).written⟩) (rest.trans split) skipped
    inked (same ▸ ok) rfl rfl
  exact ⟨_, _, read, rfl, congrArg Reading.rest same, rfl⟩

theorem nth_alike {tokens : Nat → Token} (gives : s.Gives tokens) (rest : s'.rest = s.rest)
    (resumes : s'.previous = s.previous ∨ s.previous = none ∧
      (s'.previous.any endsOperand = false ∨ (tokens 0).isNegative = false)) (n : Nat) :
    ∃ u, s'.nth n = .ok u ∧ u.unplaced = (tokens n).unplaced := by
  induction n generalizing s s' tokens with
  | zero =>
    rcases given : s.next with ⟨e | t, r⟩
    · simpa [nth, given] using gives 0
    · have first : t = tokens 0 := by simpa [nth, given] using gives 0
      obtain ⟨u, r', read, same, -⟩ := next_alike given rest (first ▸ resumes)
      exact ⟨u, by rw [nth, read], first ▸ same⟩
  | succ n ih =>
    rcases given : s.next with ⟨e | t, r⟩
    · simpa [nth, given] using gives 0
    · have first : t = tokens 0 := by simpa [nth, given] using gives 0
      obtain ⟨u, r', read, -, left, previous⟩ := next_alike given rest (first ▸ resumes)
      have later : r.Gives fun m => tokens (m + 1) := fun m => by
        simpa only [nth, given] using gives (m + 1)
      simpa only [nth, read] using ih later left (.inl previous)

theorem nth_congr (same : s.next = s'.next) (n : Nat) : s.nth n = s'.nth n := by
  cases n <;> simp only [nth, same]

theorem Emits.previous (reads : s.Emits ts s') :
    s'.previous = (ts.getLast?.map Token.kind).or s.previous := by
  induction reads with
  | nil => rfl
  | @cons s s' s'' t ts given later ih =>
    obtain ⟨-, -, -, -, -, -, kind, -⟩ := next_lexeme given
    rw [ih, kind, List.getLast?_cons]
    cases ts.getLast? <;> rfl

variable {source source' : String} {file file' : Option String} {last : Token}
  {others : Nat → Token}

/-- The tokens of a text, and then those of another one behind a line feed. -/
theorem gives_joined (lexed : tokenize source file = .ok (ts ++ [last]))
    (gives : (ofText source' file').Gives others)
    (apart : ts = [] ∨ ts.getLast?.any (·.kind = .eol) = true ∨ (others 0).isNegative = false)
    (file'' : Option String) : ∃ tokens,
      (ofText (source ++ "\n" ++ source') file'').Gives tokens ∧
      (∀ i (inside : i < ts.length), tokens i = ts[i]) ∧
      ∀ n, (tokens (ts.length + n)).unplaced = (others n).unplaced := by
  obtain ⟨more, eof, seam, _, before, given⟩ := ends_of_tokenize lexed
  let name := file''.getD defaultFile
  let after : List Char := '\n' :: source'.toList
  have whole : ofText (source ++ "\n" ++ source') file'' =
      (ofText source file).before name after := by
    simp [ofText, Scanner.before, name, after]
  have blank : Ends after := fun c first => by
    cases first
    decide
  have reads' : (ofText (source ++ "\n" ++ source') file'').Emits ts (seam.before name after) :=
    whole ▸ blank.emits_before before more
  obtain ⟨p, goesOn⟩ := next_feed given eof
  have resumes : seam.previous.any endsOperand = false ∨ (others 0).isNegative = false := by
    rcases apart with rfl | closed | positive
    · rw [before.previous]
      exact .inl rfl
    · obtain ⟨t, final, kind⟩ := (Option.any_eq_true ..).mp closed
      rw [before.previous, final, Option.map_some, of_decide_eq_true kind]
      exact .inl rfl
    · exact .inr positive
  have second : ∀ n, ∃ u, (Scanner.mk name source'.toList p seam.previous).nth n = .ok u ∧
      u.unplaced = (others n).unplaced := nth_alike gives rfl (.inr ⟨rfl, resumes⟩)
  have nths : ∀ i, ∃ t, (ofText (source ++ "\n" ++ source') file'').nth i = .ok t ∧
      (∀ inside : i < ts.length, t = ts[i]) ∧
      ∀ n, i = ts.length + n → t.unplaced = (others n).unplaced := by
    intro i
    rw [reads'.nth]
    by_cases inside : i < ts.length
    · exact ⟨ts[i], by simp [supply, inside], fun _ => rfl, fun n past => by omega⟩
    · obtain ⟨n, rfl⟩ := Nat.exists_eq_add_of_le (Nat.le_of_not_lt inside)
      obtain ⟨t, given, same⟩ := second n
      rw [← nth_congr (goesOn name source'.toList)] at given
      refine ⟨t, by simpa [supply] using given, fun inside => by omega, fun m past => ?_⟩
      obtain rfl : m = n := by omega
      exact same
  choose tokens nth inside past using nths
  exact ⟨tokens, nth, inside, fun n => past _ n rfl⟩

end ScriptSyntax.Scanner
