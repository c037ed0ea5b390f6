import ScriptSyntax.Proofs.Calls.Ahead
import ScriptSyntax.Proofs.Calls.Index

/-! Sources whose tokens can all be read. A cursor on one is told by the tokens and its place among
them, and what is asked of it is what stands there. -/
namespace ScriptSyntax

variable {tokens : Nat → Token} {source : String} {file : Option String}

/-- The scanner gives the tokens, one after the other and without end. -/
def Scanner.Gives (s : Scanner) (tokens : Nat → Token) : Prop := ∀ n, s.nth n = .ok (tokens n)

/-- Past its last token a source has the end of input, over and over. -/
theorem Scanner.gives_of_tokenize {ts : List Token} {last : Token}
    (ok : tokenize source file = .ok (ts ++ [last])) :
    (ofText source file).Gives fun n => ts[n]?.getD last := by
  intro n
  rw [draws_of_tokenize ok, Nat.zero_add, supply]
  cases h : ts[n]? <;> simp [h]

namespace Cursor

variable {c d : Cursor} {place distance : Nat}

/-- The cursor stands at the place, and these tokens are what it reads. -/
def Walks (c : Cursor) (tokens : Nat → Token) (place : Nat) : Prop :=
  ∃ file, c.Tracks ⟨file, fun n => .ok (tokens n), place⟩

theorem start_walks (gives : (Scanner.ofText source file).Gives tokens) :
    ∃ c, start source file = .ok c ∧ c.Walks tokens 0 := by
  have draws : (Scanner.ofText source file).Draws (fun n => .ok (tokens n)) 0 := fun n => by
    rw [gives n, Nat.zero_add]
  obtain ⟨c, started, tracks⟩ := start_tracks draws rfl
  exact ⟨c, started, _, tracks⟩

theorem start_arena (started : start source file = .ok c) : c.arena = .empty := by
  simp only [start] at started
  split at started <;> cases started
  rfl

namespace Walks

theorem current (walks : c.Walks tokens place) : c.current = tokens place := by
  obtain ⟨_, tracks⟩ := walks
  exact (Except.ok.inj tracks.current).symm

/-- What lies ahead of the cursor. -/
theorem ahead (walks : c.Walks tokens place) (n : Nat) : c.nth n = .ok (tokens (place + n)) := by
  obtain ⟨_, tracks⟩ := walks
  cases n with
  | zero => exact tracks.current.symm
  | succ n =>
    rw [Cursor.nth, supply, List.getElem?_cons_succ, Nat.add_comm n 1, ← Nat.add_assoc]
    rcases Nat.lt_or_ge n c.pending.length with ahead | beyond
    · rw [List.getElem?_eq_getElem ahead]
      exact (tracks.pending n ahead).symm
    · have index : place + 1 + c.pending.length + (1 + n - (c.pending.length + 1)) =
          place + 1 + n := by omega
      rw [List.getElem?_eq_none beyond, ← index]
      exact tracks.later _

/-- What a scanner gives behind the tokens that were taken from it. -/
theorem nth {s : Scanner} {taken : List Token} (walks : c.Walks tokens place)
    (reads : s.Emits (taken ++ c.current :: c.pending) c.scanner) (n : Nat) :
    s.nth (taken.length + n) = .ok (tokens (place + n)) := by
  rw [reads.nth, supply, List.getElem?_append_right (Nat.le_add_right ..),
    Nat.add_sub_cancel_left, List.length_append, List.length_cons, Nat.add_sub_add_left]
  exact walks.ahead n

/-- What a cursor reads does not depend on how its source is told. -/
theorem same {tokens' : Nat → Token} {place' : Nat} (walks : c.Walks tokens place)
    (walks' : c.Walks tokens' place') (n : Nat) : tokens (place + n) = tokens' (place' + n) :=
  Except.ok.inj ((walks.ahead n).symm.trans (walks'.ahead n))

/-- What changes neither tokens nor scanner leaves the cursor where it is. -/
theorem stay (walks : c.Walks tokens place) (scanner : d.scanner = c.scanner)
    (current : d.current = c.current) (pending : d.pending = c.pending) :
    d.Walks tokens place := by
  obtain ⟨file, tracks⟩ := walks
  exact ⟨file, tracks.congr scanner current pending⟩

theorem peek (walks : c.Walks tokens place) (within : 1 ≤ distance ∧ distance ≤ maxLookahead) :
    ∃ d, c.peek distance = (.ok (tokens (place + distance)), d) ∧ d.Walks tokens place ∧
      d.arena = c.arena := by
  obtain ⟨file, tracks⟩ := walks
  obtain ⟨d, peeked, after, arena⟩ := tracks.peek within rfl
  exact ⟨d, peeked, ⟨file, after⟩, arena⟩

theorem shift (walks : c.Walks tokens place) :
    ∃ d, c.shift = (.ok (tokens place), d) ∧ d.Walks tokens (place + 1) ∧ d.arena = c.arena := by
  have here := walks.current
  obtain ⟨file, tracks⟩ := walks
  obtain ⟨d, shifted, after, arena⟩ := tracks.shift rfl
  exact ⟨d, here ▸ shifted, ⟨file, after⟩, arena⟩

end Walks
end Cursor
end ScriptSyntax
