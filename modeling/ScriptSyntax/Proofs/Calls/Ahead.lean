import ScriptSyntax.Proofs.Calls.Supply
import ScriptSyntax.Proofs.Progress.Pull

/-! What lies ahead of a cursor, told of any cursor, however far it was read. Looking ahead gives
what lies there and moves nothing; a token that is taken moves everything one place on. -/
namespace ScriptSyntax.Cursor

variable {c d : Cursor} {t : Token} {ts : List Token} {s : Scanner} {m n distance : Nat}

/-- The token so many places after the current one, or the error that keeps the cursor from it. -/
def nth (c : Cursor) (n : Nat) : Except Error Token :=
  supply (c.current :: c.pending) (c.scanner.nth (n - (c.pending.length + 1))) n

/-- What is at hand and what the scanner gives are one sequence, wherever the one ends. -/
theorem nth_of_emits (reads : c.scanner.Emits ts s) (n : Nat) :
    c.nth n = supply (c.current :: (c.pending ++ ts))
      (s.nth (n - ((c.pending ++ ts).length + 1))) n := by
  rw [nth, reads.nth, ← List.cons_append, supply, supply, supply]
  rcases Nat.lt_or_ge n (c.current :: c.pending).length with inside | past
  · rw [List.getElem?_append_left inside, List.getElem?_eq_getElem inside]
    rfl
  · rw [List.getElem?_append_right past, List.getElem?_eq_none past, Option.elim_none,
      List.length_append, List.length_cons, Nat.sub_sub, Nat.add_right_comm]

theorem nth_of_peek (peeked : c.peek distance = (.ok t, d)) (n : Nat) : d.nth n = c.nth n := by
  obtain ⟨current, -, ts, reads, pending⟩ := peek_ok peeked
  rw [nth_of_emits reads, nth, current, pending]

theorem nth_of_shift (shifted : c.shift = (.ok t, d)) (n : Nat) : d.nth n = c.nth (n + 1) := by
  obtain ⟨-, -, ts, reads, same⟩ := shift_ok shifted
  rw [nth_of_emits reads, nth, ← same, supply, supply, List.getElem?_cons_succ, List.length_cons,
    Nat.add_sub_add_right]

theorem nth_of_scanner (c : Cursor) (m : Nat) :
    c.nth (c.pending.length + (m + 1)) = c.scanner.nth m := by
  rw [nth, supply, ← Nat.add_assoc, List.getElem?_cons_succ,
    List.getElem?_eq_none (Nat.le_add_right ..), Option.elim_none, Nat.add_right_comm,
    Nat.add_sub_cancel_left]

theorem shift_of_nth (given : c.nth 1 = .ok t) : ∃ d, c.shift = (.ok c.current, d) := by
  rcases pending : c.pending with - | ⟨u, rest⟩
  · rcases read : c.scanner.next with ⟨e | u, s⟩
    · simp [nth, supply, pending, Scanner.nth, read] at given
    · simp [shift, pending, pull, read, note]
  · simp [shift, pending]

/-- So many tokens can be read ahead where the last of them can. -/
theorem fill_of_nth (given : c.scanner.nth m = .ok t) : ∃ d, c.fill (m + 1) = (.ok (), d) := by
  induction m generalizing c with
  | zero =>
    rcases read : c.scanner.next with ⟨first, s⟩
    obtain rfl : first = .ok t := by simpa [Scanner.nth, read] using given
    exact ⟨_, by simp only [fill, pull, read]; rfl⟩
  | succ m ih =>
    rcases read : c.scanner.next with ⟨e | u, s⟩
    · simp [Scanner.nth, read] at given
    · simp only [Scanner.nth, read] at given
      rw [fill, pull, read]
      exact ih given

theorem nth_fill (filled : c.fill m = (.ok (), d)) (n : Nat) : d.nth n = c.nth n := by
  obtain ⟨ts, reads, pending, current, -⟩ := fill_ok filled
  rw [nth_of_emits reads, nth, current, pending]

theorem peek_of_nth (within : 1 ≤ distance ∧ distance ≤ maxLookahead)
    (given : c.nth distance = .ok t) : ∃ d, c.peek distance = (.ok t, d) := by
  have ⟨d, filled⟩ : ∃ d, c.fill (distance - c.pending.length) = (.ok (), d) := by
    rcases Nat.le_total distance c.pending.length with near | far
    · exact ⟨c, by rw [Nat.sub_eq_zero_of_le near, fill]⟩
    · obtain ⟨m, rfl⟩ := Nat.exists_eq_add_of_le far
      cases m with
      | zero => exact ⟨c, by rw [Nat.add_zero, Nat.sub_self, fill]⟩
      | succ m =>
        rw [nth_of_scanner] at given
        rw [Nat.add_sub_cancel_left]
        exact fill_of_nth given
  have there := (nth_fill filled distance).trans given
  have long := fill_length filled
  refine ⟨d, ?_⟩
  rw [peek, if_neg (by omega), filled]
  obtain ⟨k, rfl⟩ : ∃ k, distance = k + 1 := ⟨distance - 1, by omega⟩
  have inside : k < d.pending.length := by omega
  simp only [nth, supply, List.getElem?_cons_succ, List.getElem?_eq_getElem inside] at there
  simp [inside, Except.ok.inj there]

end ScriptSyntax.Cursor
