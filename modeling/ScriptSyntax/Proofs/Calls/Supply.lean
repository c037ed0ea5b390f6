import ScriptSyntax.Proofs.Scan.Lexeme

/-! The tokens of a scanner by their number: those that it gives, and past them the end of input
over and over, or the error that it cannot get past. -/
namespace ScriptSyntax

/-- What is to be had at each place of the source: its tokens, and from there on the ending. -/
def supply (ts : List Token) (ending : Except Error Token) (i : Nat) : Except Error Token :=
  (ts[i]?).elim ending .ok

namespace Scanner

variable {s s' : Scanner} {t : Token} {ts : List Token} {e : Error}
  {tokens : Nat → Except Error Token} {n : Nat}

theorem file_of_next (read : s.next = (.ok t, s')) : s'.file = s.file := by
  obtain ⟨gap, rest, -, -, -, -, -, -, after⟩ := next_reads read
  rw [after]

/-- The token of this number, or the error that keeps the scanner from it. -/
def nth : Nat → Scanner → Except Error Token
  | 0, s => s.next.1
  | n + 1, s =>
    match s.next with
    | (.ok _, s') => s'.nth n
    | (.error e, _) => .error e

/-- The scanner gives what is at the place and after it. -/
def Draws (s : Scanner) (tokens : Nat → Except Error Token) (n : Nat) : Prop :=
  ∀ m, s.nth m = tokens (n + m)

theorem Draws.ok (draws : s.Draws tokens n) (read : s.next = (.ok t, s')) :
    tokens n = .ok t ∧ s'.Draws tokens (n + 1) := by
  refine ⟨?_, fun m => ?_⟩
  · rw [← Nat.add_zero n, ← draws 0, nth, read]
  · rw [Nat.add_assoc, Nat.add_comm 1 m, ← draws (m + 1), nth, read]

/-- There is no way past an error. -/
theorem Draws.error (draws : s.Draws tokens n) (stuck : s.next = (.error e, s')) (m : Nat) :
    tokens (n + m) = .error e := by
  rw [← draws m]
  cases m <;> simp [nth, stuck]

theorem Emits.nth (reads : s.Emits ts s') (m : Nat) :
    s.nth m = supply ts (s'.nth (m - ts.length)) m := by
  induction reads generalizing m with
  | nil => rfl
  | cons read later ih =>
    cases m with
    | zero => simp [Scanner.nth, read, supply]
    | succ m => simpa [Scanner.nth, read, supply] using ih m

theorem nth_of_eof (given : s.next = (.ok t, s')) (eof : t.kind = .eof) (m : Nat) :
    s.nth m = .ok t := by
  have again := next_eof given eof
  induction m generalizing s with
  | zero => rw [nth, given]
  | succ m ih =>
    simp only [nth, given]
    exact ih again

theorem nth_of_stuck (stuck : s.next = (.error e, s')) (m : Nat) : s.nth m = .error e := by
  cases m <;> simp [nth, stuck]

variable {source : String} {file : Option String} {last : Token}

theorem draws_of_tokenize (ok : tokenize source file = .ok (ts ++ [last])) :
    (ofText source file).Draws (supply ts (.ok last)) 0 := by
  obtain ⟨-, kind, _, _, before, given⟩ := ends_of_tokenize ok
  intro m
  rw [before.nth, nth_of_eof given kind, Nat.zero_add]

theorem draws_of_error (given : (ofText source file).tokens = (ts, some e)) :
    (ofText source file).Draws (supply ts (.error e)) 0 := by
  obtain ⟨-, s', s'', reads, stuck⟩ := emits_of_tokensWithin_error given
  intro m
  rw [reads.nth, nth_of_stuck stuck, Nat.zero_add]

end Scanner
end ScriptSyntax
