import ScriptSyntax.Proofs.Layout.Run
import ScriptSyntax.Proofs.Locality.Facing
import ScriptSyntax.Proofs.Ownership.Entry
import ScriptSyntax.Proofs.Record.Embedding

/-! Statements read from a cursor that has some tokens at hand and nothing else. It stands for every
cursor that faces these tokens: a statement is read from the one as it is from the others, on top of
whatever nodes there are. -/
namespace ScriptSyntax

namespace Arena

variable (a : Arena) (depth : Nat) (i : NodeId)

theorem recordWithin_unrooted : a.unrooted.recordWithin depth i = a.recordWithin depth i := by
  induction depth generalizing i with
  | zero => rfl
  | succ depth ih =>
    have below : a.unrooted.recordWithin depth = a.recordWithin depth := funext ih
    rw [recordWithin, recordWithin, below]
    rfl

theorem nodeRecord_unrooted : a.unrooted.nodeRecord i = a.nodeRecord i :=
  a.recordWithin_unrooted a.size i

end Arena

namespace Cursor

variable {a : Arena} {c c' d d' : Cursor} {ts us : List Token} {t : Token} {n : Nat}

theorem Twins.nodeRecord_eq (twins : c.Twins c') (id : NodeId) :
    c'.arena.nodeRecord id = c.arena.nodeRecord id := by
  rw [← Arena.nodeRecord_unrooted, twins, Arena.nodeRecord_unrooted]

/-! What lies ahead of a cursor behind the tokens that were taken. -/

theorem Takes.faces_self (takes : c.Takes ts d) : c.Faces (ts ++ [d.current]) := by
  obtain ⟨us, reads, split⟩ := takes
  exact ⟨us, _, reads, ⟨d.pending, by rw [split, List.append_assoc, List.singleton_append]⟩⟩

theorem Faces.eq_of_length (faces : c.Faces ts) (faces' : c.Faces us)
    (length : ts.length = us.length) : ts = us := by
  refine List.ext_getElem length fun n inside inside' => ?_
  exact Except.ok.inj ((faces.nth inside).symm.trans (faces'.nth inside'))

theorem Takes.nth (takes : c.Takes ts d) (n : Nat) : d.nth n = c.nth (ts.length + n) := by
  obtain ⟨us, reads, split⟩ := takes
  have length : (c.pending ++ us).length + 1 = ts.length + (d.pending.length + 1) := by
    simpa using congrArg List.length split
  rw [nth_of_emits reads, split, Cursor.nth, supply, supply,
    List.getElem?_append_right (Nat.le_add_right ..), Nat.add_sub_cancel_left, length,
    Nat.add_sub_add_left]

/-! A cursor with nothing but the tokens at hand. -/

/-- What is found at the end of every text. -/
def final : Token := .canonical .eof ⟨.start, .start⟩

/-- A cursor that has these tokens at hand and nothing behind them. -/
def holding (a : Arena) (ts : List Token) : Cursor :=
  ⟨.ofText "" none, ts.headD final, ts.tail, a, []⟩

theorem holding_nth (a : Arena) (ts : List Token) (n : Nat) :
    (holding a ts).nth n = .ok (ts[n]?.getD final) := by
  have none (m : Nat) : (Scanner.ofText "" none).nth m = .ok final :=
    @Scanner.nth_of_eof _ (Scanner.ofText "" none).next.2 _ (by decide +kernel) rfl m
  rw [nth, holding, none, supply]
  cases ts with
  | nil => cases n <;> rfl
  | cons t ts =>
    change ((t :: ts)[n]?).elim _ _ = _
    cases (t :: ts)[n]? <;> rfl

theorem holding_faces (a : Arena) (ts : List Token) : (holding a ts).Faces ts := by
  refine ⟨[], _, .nil, ?_⟩
  cases ts with
  | nil => exact List.nil_prefix
  | cons t ts => simp [holding]

theorem Alike.holding (a : Arena) (same : ts.map Token.unplaced = us.map Token.unplaced) :
    Alike a.unrooted.unplaced (holding .empty ts) (holding a.unrooted us) where
  ahead n := by
    refine ⟨_, _, holding_nth .empty ts n, holding_nth _ us n, ?_⟩
    rw [Token.Alike, ← Option.getD_map Token.unplaced, ← Option.getD_map Token.unplaced,
      ← List.getElem?_map, ← List.getElem?_map, same]
  arena := by simp [Arena.atop, Arena.unplaced, Arena.empty, Arena.unrooted, Cursor.holding]

theorem Alike.kind_ahead (alike : Alike a c c') (n : Nat) :
    (c.nth n).map Token.kind = (c'.nth n).map Token.kind := by
  obtain ⟨t, u, there, there', same⟩ := alike.ahead n
  rw [there, there']
  exact congrArg Except.ok same.kind

theorem Takes.kind_ne (takes : c.Takes ts d) (more : ∀ t ∈ ts, t.kind ≠ .eof)
    (inside : n < ts.length) : (c.nth n).map Token.kind ≠ .ok .eof := by
  have before := takes.ahead
  rw [before.nth inside]
  intro eof
  exact more _ (List.getElem_mem inside) (Except.ok.inj eof)

/-- As many tokens are taken where the tokens before and after are of the same kinds. -/
theorem Takes.length_eq (takes : (holding a (ts ++ [t])).Takes ts d) (takes' : c'.Takes us d')
    (more : ∀ t ∈ ts, t.kind ≠ .eof) (more' : ∀ t ∈ us, t.kind ≠ .eof)
    (before : ∀ n, ((holding a (ts ++ [t])).nth n).map Token.kind = (c'.nth n).map Token.kind)
    (after : ∀ n, (d.nth n).map Token.kind = (d'.nth n).map Token.kind) :
    us.length = ts.length := by
  have past (n : Nat) (behind : ts.length < n) : (c'.nth n).map Token.kind = .ok .eof := by
    rw [← before, holding_nth, List.getElem?_eq_none (by simp; omega)]
    rfl
  have same (n : Nat) :
      (c'.nth (ts.length + n)).map Token.kind = (c'.nth (us.length + n)).map Token.kind := by
    rw [← before, ← takes.nth, ← takes'.nth, after]
  -- `t` would be taken for another of the tokens, and so for the end of input, or the reverse.
  rcases Nat.lt_trichotomy us.length ts.length with fewer | equal | further
  · have inside := takes.kind_ne more fewer
    rw [before] at inside
    obtain ⟨k, split⟩ := Nat.exists_eq_add_of_lt fewer
    have there := same (k + 1)
    rw [past _ (by omega), ← Nat.add_assoc, ← split] at there
    exact absurd ((same 0).symm.trans there.symm) inside
  · exact equal
  · have inside := takes'.kind_ne more' further
    exact absurd ((same 0).trans (past _ further)) inside

end Cursor

open Cursor

variable {depth : Nat} {c d e : Cursor} {a : Arena} {id i j : NodeId} {ts : List Token}

/-- A statement that is read on top of other nodes looks as it does without them. -/
theorem Rule.statement_record (ran : Rule.statement.run depth (holding .empty ts) = some (.ok i, d))
    (lifted : Yield.node.lifted a.unrooted.unplaced.size i = Yield.node.lifted 0 j)
    (alike : Alike a.unrooted.unplaced d e) : e.arena.nodeRecord j = d.arena.nodeRecord i := by
  obtain ⟨held, hand, value⟩ := Rule.keep .empty depth .statement _ [] _ (inHand_self _) ran
  obtain rfl := value i rfl
  have bound := (hand.loose List.mem_cons_self).2.1
  obtain ⟨trees, grows, -⟩ := hand
  have embeds := (Arena.embeds_atop alike.arena).2
  have size : e.arena.size = a.unrooted.size + d.arena.size := by
    rw [← Arena.size_unplaced, alike.arena, Arena.size_atop, Arena.size_unplaced]
  simp only [Yield.lifted, Nat.zero_add, Arena.size_unplaced] at lifted
  subst lifted
  exact embeds.nodeRecord (Arena.isForest_iff.mpr grows).isAcyclic bound (by omega)

/-- A statement is read wherever its tokens and the next one are faced, up to their places, and has
the same external form there. -/
theorem Rule.statement_local (ran : Rule.statement.run depth c = some (.ok id, d)) :
    ∃ ts, c.Takes ts d ∧ (∀ t ∈ ts, t.kind ≠ .eof) ∧
      ∀ us u c', c'.Faces (us ++ [u]) → us.map Token.unplaced = ts.map Token.unplaced →
        u.Alike d.current → ∃ id' d', Rule.statement.run depth c' = some (.ok id', d') ∧
          c'.Takes us d' ∧ d'.arena.nodeRecord id' = d.arena.nodeRecord id := by
  obtain ⟨ts, n, takes, more, rests, -, again⟩ :=
    confinedRules depth .statement c d 0 id (Nat.zero_le _) ran
  obtain rfl : n = 0 := rests
  refine ⟨ts, takes, more, fun us u c' faces same next => ?_⟩
  have hand : (holding .empty (ts ++ [d.current])).InHand .empty (Rule.statement.takes ++ []) :=
    inHand_self _
  -- From the tokens alone on top of the nodes at hand, and then without these.
  obtain ⟨e, ran₁, takes₁, twins₁⟩ := again [d.current]
    (holding c.arena.unrooted (ts ++ [d.current])) Nat.one_pos takes.faces_self
    (holding_faces ..) rfl
  have under := @Alike.holding (ts ++ [d.current]) _ c.arena rfl
  obtain ⟨i, b, bare, lifted, after⟩ := under.call_of hand rfl ran₁
  -- The other tokens alone, on top of other nodes.
  have above := @Alike.holding (ts ++ [d.current]) (us ++ [u]) c'.arena (by
    rw [List.map_append, List.map_append, same]
    exact congrArg (_ ++ [·]) next.symm)
  obtain ⟨j, f, ran₂, lifted', after'⟩ := above.call hand rfl bare
  obtain ⟨vs, m, takes₂, more₂, rests, -, again'⟩ :=
    confinedRules depth .statement _ f 0 j (Nat.zero_le _) ran₂
  obtain rfl : m = 0 := rests
  have count : vs.length = us.length := by
    rw [takes₁.length_eq takes₂ more more₂
      (fun n => (under.kind_ahead n).symm.trans (above.kind_ahead n))
      (fun n => (after.kind_ahead n).symm.trans (after'.kind_ahead n))]
    simpa using (congrArg List.length same).symm
  obtain rfl : vs = us := takes₂.ahead.eq_of_length
    ((holding_faces ..).mono (List.prefix_append ..)) count
  obtain ⟨d', ran', takes', twins'⟩ := again' [u] c' Nat.one_pos (holding_faces ..) faces rfl
  refine ⟨j, d', ran', takes', ?_⟩
  rw [twins'.nodeRecord_eq, statement_record bare lifted' after',
    ← statement_record bare lifted after, twins₁.nodeRecord_eq]

end ScriptSyntax
