import ScriptSyntax.Program
import ScriptSyntax.Proofs.Scan.Emits

/-! What a cursor draws from its scanner. Its current token and those pending are the last that the
scanner gave, and what is left of the source shrinks with each token that is taken. -/
namespace ScriptSyntax

/-- The number of tokens before the end of input. -/
def proper (ts : List Token) : Nat := ts.countP (·.kind ≠ .eof)

@[simp] theorem proper_nil : proper [] = 0 := rfl

@[simp] theorem proper_cons (t : Token) (ts : List Token) :
    proper (t :: ts) = proper ts + if t.kind ≠ .eof then 1 else 0 := by
  simp [proper, List.countP_cons]

@[simp] theorem proper_append (ts us : List Token) : proper (ts ++ us) = proper ts + proper us :=
  List.countP_append

theorem proper_eq_length {ts : List Token} (more : ∀ t ∈ ts, t.kind ≠ .eof) :
    proper ts = ts.length :=
  List.countP_eq_length.mpr fun t member => decide_eq_true (more t member)

theorem Scanner.Emits.proper_le {s s' : Scanner} {ts : List Token} (reads : s.Emits ts s') :
    s'.rest.length + proper ts ≤ s.rest.length := by
  induction reads with
  | nil => simp
  | cons read later ih =>
    obtain ⟨gap, written, split, -⟩ := next_ok read
    have shorter := congrArg List.length split
    simp only [List.length_append] at shorter
    rw [proper_cons]
    split
    · next more =>
      have := next_shortens read more
      omega
    · omega

namespace Cursor

variable {c c' : Cursor} {e : Error} {s : Scanner}

theorem pull_ok {t : Token} (pulled : c.pull = (.ok t, c')) :
    c.scanner.next = (.ok t, c'.scanner) ∧ c'.current = c.current ∧ c'.pending = c.pending ∧
      c'.arena = c.arena := by
  simp only [pull] at pulled
  split at pulled
  · next read =>
    simp only [Prod.mk.injEq, Except.ok.injEq] at pulled
    obtain ⟨rfl, rfl⟩ := pulled
    exact ⟨read, rfl, rfl, rfl⟩
  · simp at pulled

theorem fill_ok {n : Nat} (filled : c.fill n = (.ok (), c')) :
    ∃ ts, c.scanner.Emits ts c'.scanner ∧ c'.pending = c.pending ++ ts ∧
      c'.current = c.current ∧ c'.arena = c.arena := by
  induction n generalizing c with
  | zero =>
    simp only [fill, Prod.mk.injEq] at filled
    obtain ⟨-, rfl⟩ := filled
    exact ⟨[], .nil, by simp, rfl, rfl⟩
  | succ n ih =>
    simp only [fill] at filled
    split at filled
    · next t d pulled =>
      obtain ⟨read, current, pending, arena⟩ := pull_ok pulled
      obtain ⟨ts, reads, later, same, kept⟩ := ih filled
      refine ⟨t :: ts, .cons read reads, ?_, same.trans current, kept.trans arena⟩
      rw [later, pending]
      simp
    · simp at filled

theorem fill_length {n : Nat} (filled : c.fill n = (.ok (), c')) :
    c'.pending.length = c.pending.length + n := by
  induction n generalizing c with
  | zero =>
    cases filled
    rfl
  | succ n ih =>
    simp only [fill] at filled
    split at filled
    · next t d pulled =>
      rw [ih filled, (pull_ok pulled).2.2.1, List.length_append, List.length_singleton]
      omega
    · simp at filled

theorem pull_error (pulled : c.pull = (.error e, c')) :
    c.scanner.next = (.error e, c'.scanner) := by
  simp only [pull] at pulled
  split at pulled
  · simp at pulled
  · next read =>
    simp only [Prod.mk.injEq, Except.error.injEq] at pulled
    obtain ⟨rfl, rfl⟩ := pulled
    exact read

theorem fill_error {n : Nat} (failed : c.fill n = (.error e, c')) :
    ∃ ts s, c.scanner.Emits ts s ∧ s.next = (.error e, c'.scanner) := by
  induction n generalizing c with
  | zero => simp [fill] at failed
  | succ n ih =>
    simp only [fill] at failed
    split at failed
    · next t d pulled =>
      obtain ⟨ts, s, reads, stuck⟩ := ih failed
      exact ⟨t :: ts, s, .cons (pull_ok pulled).1 reads, stuck⟩
    · next stuck =>
      cases failed
      exact ⟨[], c.scanner, .nil, pull_error stuck⟩

/-- What is left to take: the tokens at hand, and those that the rest of the source can hold. -/
def left (c : Cursor) : Nat := c.scanner.rest.length + proper (c.current :: c.pending)

/-- The cursor stands among the tokens that the scanner gives. -/
def Follows (c : Cursor) (s : Scanner) : Prop :=
  ∃ taken, s.Emits (taken ++ c.current :: c.pending) c.scanner

theorem peek_ok {depth : Nat} {t : Token} (peeked : c.peek depth = (.ok t, c')) :
    c'.current = c.current ∧ c'.arena = c.arena ∧
      ∃ ts, c.scanner.Emits ts c'.scanner ∧ c'.pending = c.pending ++ ts := by
  simp only [peek] at peeked
  split at peeked
  · simp at peeked
  · split at peeked
    · next d filled =>
      simp only [Prod.mk.injEq] at peeked
      obtain ⟨-, rfl⟩ := peeked
      obtain ⟨ts, reads, pending, current, arena⟩ := fill_ok filled
      exact ⟨current, arena, ts, reads, pending⟩
    · simp at peeked

theorem peek_error {depth : Nat} (within : 0 < depth ∧ depth ≤ maxLookahead)
    (failed : c.peek depth = (.error e, c')) :
    ∃ ts s, c.scanner.Emits ts s ∧ s.next = (.error e, c'.scanner) := by
  rw [peek, if_neg (by omega)] at failed
  split at failed
  · simp at failed
  · next filled =>
    cases failed
    exact fill_error filled

theorem shift_ok {t : Token} (shifted : c.shift = (.ok t, c')) :
    t = c.current ∧ c'.arena = c.arena ∧
      ∃ ts, c.scanner.Emits ts c'.scanner ∧ c'.current :: c'.pending = c.pending ++ ts := by
  simp only [shift] at shifted
  split at shifted
  · next u rest pending =>
    simp only [Prod.mk.injEq, Except.ok.injEq] at shifted
    obtain ⟨rfl, rfl⟩ := shifted
    exact ⟨rfl, rfl, [], .nil, by simp [pending]⟩
  · next pending =>
    split at shifted
    · next u d pulled =>
      simp only [Prod.mk.injEq, Except.ok.injEq] at shifted
      obtain ⟨rfl, rfl⟩ := shifted
      obtain ⟨read, same, none, arena⟩ := pull_ok pulled
      exact ⟨same, arena, [u], .cons read .nil, by simp [none, pending]⟩
    · simp at shifted

theorem shift_error (failed : c.shift = (.error e, c')) :
    c.scanner.next = (.error e, c'.scanner) := by
  simp only [shift] at failed
  split at failed
  · simp at failed
  · split at failed
    · simp at failed
    · next pulled =>
      cases failed
      exact pull_error pulled

/-- Regrouping notes down its rotations, and changes the arena besides. -/
theorem regroup_eq (c : Cursor) (id : NodeId) : c.regroup id = ((c.arena.regroup id).1,
    { c with
      arena := (c.arena.regroup id).2.1
      journal := ((c.arena.regroup id).2.2.map Event.rotated).reverse ++ c.journal }) := by
  have noted (rs : List Rotation) (d : Cursor) : rs.foldl (fun c r => c.note (.rotated r)) d =
      { d with journal := (rs.map Event.rotated).reverse ++ d.journal } := by
    induction rs generalizing d with
    | nil => rfl
    | cons r rest ih =>
      rw [List.foldl_cons, ih, List.map_cons, List.reverse_cons, List.append_assoc]
      rfl
  exact congrArg (Prod.mk _) (noted _ _)

theorem regroup_keeps (c : Cursor) (id : NodeId) :
    (c.regroup id).2.current = c.current ∧ (c.regroup id).2.pending = c.pending ∧
      (c.regroup id).2.scanner = c.scanner ∧
      (c.regroup id).2.arena = (c.arena.regroup id).2.1 := by
  rw [regroup_eq]
  exact ⟨rfl, rfl, rfl, rfl⟩

end Cursor
end ScriptSyntax
