import ScriptSyntax.Proofs.Calls.Total
import ScriptSyntax.Proofs.Grouping.Regroup
import ScriptSyntax.Proofs.Layout.Arena
import ScriptSyntax.Proofs.Ownership.Run

/-! Sources that agree in their tokens up to places, and cursors on them that do, where the one has
made its nodes on top of others. What such cursors are asked for agrees as well, and so do the
cursors after it. -/
namespace ScriptSyntax

/-- Tokens that agree in all but their places. -/
abbrev Token.Alike (t u : Token) : Prop := t.unplaced = u.unplaced

theorem Token.Alike.kind {t u : Token} (alike : t.Alike u) : t.kind = u.kind :=
  (Token.mk.inj alike).1

theorem Token.Alike.text {t u : Token} (alike : t.Alike u) : t.text = u.text := by
  rw [← text_unplaced t, alike, text_unplaced]

/-- Sources that have like tokens from these places on. -/
def AlikeFrom (tokens tokens' : Nat → Token) (place place' : Nat) : Prop :=
  ∀ n, (tokens (place + n)).Alike (tokens' (place' + n))

/-- Cursors that agree in all but the places of tokens and what they noted down, except that `c'`
has its nodes on top of those of `base`. -/
structure Cursor.Alike (base : Arena) (c c' : Cursor) : Prop where
  ahead : ∀ n, ∃ t u, c.nth n = .ok t ∧ c'.nth n = .ok u ∧ t.Alike u
  arena : c'.arena.unplaced = c.arena.atop base

/-- Outcomes with like cursors, which either give results in the relation or fail with one fault. -/
inductive Cursor.Outcome.Agree {α β : Type} (base : Arena) (R : α → β → Prop) :
    Outcome α → Outcome β → Prop where
  | ok {a : α} {b : β} {c c' : Cursor} (results : R a b) (alike : Alike base c c') :
    Agree base R (.ok a, c) (.ok b, c')
  | error {e e' : Error} {c c' : Cursor} (fault : e.fault = e'.fault) :
    Agree base R (.error e, c) (.error e', c')

namespace Cursor.Alike

variable {base : Arena} {c c' : Cursor}

theorem of_walks {tokens tokens' : Nat → Token} {place place' : Nat} (walks : c.Walks tokens place)
    (walks' : c'.Walks tokens' place') (same : AlikeFrom tokens tokens' place place')
    (arena : c'.arena.unplaced = c.arena.atop base) : Alike base c c' :=
  ⟨fun n => ⟨_, _, walks.ahead n, walks'.ahead n, same n⟩, arena⟩

theorem start {source source' : String} {file file' : Option String} {ts us : List Token}
    (ok : tokenize source file = .ok ts) (ok' : tokenize source' file' = .ok us)
    (same : ts.map Token.unplaced = us.map Token.unplaced) :
    ∃ c c', Cursor.start source file = .ok c ∧ Cursor.start source' file' = .ok c' ∧
      Alike .empty c c' := by
  obtain ⟨ts, last, -, rfl, -⟩ := Scanner.emits_of_tokenize ok
  obtain ⟨us, last', -, rfl, -⟩ := Scanner.emits_of_tokenize ok'
  obtain ⟨c, started, walks⟩ := start_walks (Scanner.gives_of_tokenize ok)
  obtain ⟨c', started', walks'⟩ := start_walks (Scanner.gives_of_tokenize ok')
  refine ⟨c, c', started, started', .of_walks walks walks' (fun n => ?_) ?_⟩
  · simp only [List.map_append, List.map_cons, List.map_nil] at same
    obtain ⟨inner, final⟩ := List.append_inj' same rfl
    rw [Token.Alike, Nat.zero_add, ← Option.getD_map Token.unplaced,
      ← Option.getD_map Token.unplaced, ← List.getElem?_map, ← List.getElem?_map, inner,
      (List.cons.inj final).1]
  · rw [start_arena started, start_arena started', Arena.atop_empty]

theorem current (alike : Alike base c c') : c.current.Alike c'.current := by
  obtain ⟨t, u, here, here', same⟩ := alike.ahead 0
  cases here
  cases here'
  exact same

theorem peek (alike : Alike base c c') (depth : Nat) :
    Outcome.Agree base Token.Alike (c.peek depth) (c'.peek depth) := by
  by_cases within : 1 ≤ depth ∧ depth ≤ maxLookahead
  · obtain ⟨t, u, there, there', same⟩ := alike.ahead depth
    obtain ⟨d, peeked⟩ := peek_of_nth within there
    obtain ⟨d', peeked'⟩ := peek_of_nth within there'
    have arena := c.arena_peek depth
    have arena' := c'.arena_peek depth
    rw [peeked] at arena
    rw [peeked'] at arena'
    rw [peeked, peeked']
    refine .ok same ⟨fun n => ?_, ?_⟩
    · rw [nth_of_peek peeked, nth_of_peek peeked']
      exact alike.ahead n
    · rw [arena, arena', alike.arena]
  · unfold Cursor.peek
    rw [if_pos (by omega), if_pos (by omega)]
    exact .error rfl

theorem shift (alike : Alike base c c') :
    Outcome.Agree base Token.Alike c.shift c'.shift := by
  obtain ⟨t, u, next, next', -⟩ := alike.ahead 1
  obtain ⟨d, shifted⟩ := shift_of_nth next
  obtain ⟨d', shifted'⟩ := shift_of_nth next'
  have arena := c.arena_shift
  have arena' := c'.arena_shift
  rw [shifted] at arena
  rw [shifted'] at arena'
  rw [shifted, shifted']
  refine .ok alike.current ⟨fun n => ?_, ?_⟩
  · rw [nth_of_shift shifted, nth_of_shift shifted']
    exact alike.ahead (n + 1)
  · rw [arena, arena', alike.arena]

/-- What changes the arena alone, and likewise, leaves the cursors alike. -/
theorem stay {d d' : Cursor} (alike : Alike base c c')
    (arena : d'.arena.unplaced = d.arena.atop base)
    (kept : d.scanner = c.scanner ∧ d.current = c.current ∧ d.pending = c.pending)
    (kept' : d'.scanner = c'.scanner ∧ d'.current = c'.current ∧ d'.pending = c'.pending) :
    Alike base d d' := by
  obtain ⟨scanner, current, pending⟩ := kept
  obtain ⟨scanner', current', pending'⟩ := kept'
  refine ⟨fun n => ?_, arena⟩
  rw [nth, nth, scanner, current, pending, scanner', current', pending']
  exact alike.ahead n

theorem add (alike : Alike base c c') {shape shape' : Shape NodeId} {token token' : Option Token}
    (shapes : shape.lifted base.size = shape'.unplaced)
    (tokens : token.map Token.unplaced = token'.map Token.unplaced) :
    (c'.add shape' token').1 = base.size + (c.add shape token).1 ∧
      Alike base (c.add shape token).2 (c'.add shape' token').2 := by
  have same := c'.arena.add_unplaced shape' token'
  rw [alike.arena, ← shapes, ← tokens, Arena.add_atop, Prod.mk.injEq] at same
  exact ⟨same.1.symm, alike.stay same.2.symm ⟨rfl, rfl, rfl⟩ ⟨rfl, rfl, rfl⟩⟩

theorem freeze (alike : Alike base c c') (id : NodeId) :
    Alike base (c.freeze id) (c'.freeze (base.size + id)) := by
  have same := c'.arena.freeze_unplaced (base.size + id)
  rw [alike.arena, Arena.freeze_atop] at same
  exact alike.stay same.symm ⟨rfl, rfl, rfl⟩ ⟨rfl, rfl, rfl⟩

theorem regroup (alike : Alike base c c') {forest : List Tree} {t : Tree}
    (last : c.arena.IsForest (forest ++ [t])) :
    (c'.regroup (base.size + t.id)).1 = base.size + (c.regroup t.id).1 ∧
      Alike base (c.regroup t.id).2 (c'.regroup (base.size + t.id)).2 := by
  have same := c'.arena.regroup_unplaced (base.size + t.id)
  rw [alike.arena, Arena.regroup_atop fun left found =>
    last.unchain_eq found (Nat.le_add_left ..), Prod.mk.injEq, Prod.mk.injEq] at same
  obtain ⟨current, pending, scanner, arena⟩ := c.regroup_keeps t.id
  obtain ⟨current', pending', scanner', arena'⟩ := c'.regroup_keeps (base.size + t.id)
  refine ⟨same.1.symm, alike.stay ?_ ⟨scanner, current, pending⟩ ⟨scanner', current', pending'⟩⟩
  rw [arena, arena']
  exact same.2.1.symm

theorem profile (alike : Alike base c c') (id : NodeId) :
    ((c'.arena.node? (base.size + id)).getD ⟨.noOp, none, none, false⟩).profile =
      ((c.arena.node? id).getD ⟨.noOp, none, none, false⟩).profile := by
  have same := congrArg (Arena.node? · (base.size + id)) alike.arena
  simp only [Arena.node?_unplaced, Arena.node?_atop] at same
  cases found : c.arena.node? id <;> cases found' : c'.arena.node? (base.size + id) <;>
    simp only [found, found', Option.map_none, Option.map_some, reduceCtorEq, Option.some.injEq]
      at same
  · rfl
  · rw [Option.getD_some, Option.getD_some, ← Node.profile_lifted 0, Node.lifted_zero, same,
      Node.profile_lifted]

end Cursor.Alike
end ScriptSyntax
