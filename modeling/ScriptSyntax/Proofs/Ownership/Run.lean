import ScriptSyntax.Proofs.Grouping.Regroup
import ScriptSyntax.Proofs.Ownership.Grammar
import ScriptSyntax.Proofs.Progress.Pull

/-! What runs leave in the arena, whether they end in a result or in an error: next to the nodes
that were there before, which stay as they were, the trees of the nodes in hand. -/
namespace ScriptSyntax

namespace Tree

/-- The tree among `ts` with the id. -/
def pick (ts : List Tree) (i : NodeId) : Tree := (ts.find? fun t => t.id = i).getD default

theorem pick_id {ts : List Tree} {t : Tree} (nodup : (ts.map id).Nodup) (member : t ∈ ts) :
    pick ts t.id = t := by
  rw [pick]
  cases found : ts.find? fun s => s.id = t.id with
  | none =>
    have apart := List.find?_eq_none.mp found t member
    simp at apart
  | some s =>
    have same : s.id = t.id := by simpa using List.find?_some found
    exact List.inj_on_of_nodup_map nodup (List.mem_of_find?_eq_some found) member same

end Tree

/-- A shape over the ids of trees is the image of one over the trees. -/
theorem Shape.exists_trees {s : Shape NodeId} {ts : List Tree} (same : ts.map Tree.id = s.children)
    (nodup : (ts.map Tree.id).Nodup) :
    ∃ s' : Shape Tree, s'.map Tree.id = s ∧ s'.children = ts := by
  refine ⟨s.map (Tree.pick ts), ?_, ?_⟩
  · rw [map_map]
    refine (map_congr s fun i child => ?_).trans s.map_self
    rw [← same] at child
    obtain ⟨t, member, rfl⟩ := List.mem_map.mp child
    rw [Tree.pick_id nodup member]
  · rw [children_map, ← same, List.map_map]
    exact (List.map_congr_left fun t member => Tree.pick_id nodup member).trans (List.map_id ts)

/-! What takes no node leaves the arena alone. -/

namespace Cursor

theorem arena_pull (c : Cursor) : c.pull.2.arena = c.arena := by
  rw [pull]
  split <;> rfl

theorem arena_fill (n : Nat) (c : Cursor) : (c.fill n).2.arena = c.arena := by
  induction n generalizing c with
  | zero => rfl
  | succ n ih =>
    have pulled := c.arena_pull
    rw [fill]
    split
    · next t d read =>
      rw [read] at pulled
      rw [ih]
      exact pulled
    · next e d read =>
      rw [read] at pulled
      exact pulled

theorem arena_peek (c : Cursor) (depth : Nat) : (c.peek depth).2.arena = c.arena := by
  rw [peek]
  split
  · rfl
  · have filled := arena_fill (depth - c.pending.length) c
    split
    · next d read =>
      rw [read] at filled
      exact filled
    · next e d read =>
      rw [read] at filled
      exact filled

theorem arena_shift (c : Cursor) : c.shift.2.arena = c.arena := by
  rw [shift]
  split
  · rfl
  · have pulled := c.arena_pull
    split
    · next t d read =>
      rw [read] at pulled
      exact pulled
    · next e d read =>
      rw [read] at pulled
      exact pulled

/-! Nodes in hand. -/

/-- What the cursor's arena has besides the nodes of `b` are the trees under the nodes `held`, the
last one of which was made last and comes first. -/
def InHand (c : Cursor) (b : Arena) (held : List NodeId) : Prop :=
  ∃ ts, b.Grows c.arena ts ∧ ts.map Tree.id = held.reverse

variable {c d : Cursor} {b : Arena} {held rest : List NodeId} {id : NodeId}

theorem inHand_self (c : Cursor) : c.InHand c.arena [] := ⟨[], Arena.grows_self c.arena, rfl⟩

theorem InHand.of_forest {ts : List Tree} (forest : c.arena.IsForest ts) :
    c.InHand .empty (ts.map Tree.id).reverse :=
  ⟨ts, Arena.isForest_iff.mp forest, (List.reverse_reverse _).symm⟩

theorem InHand.congr (hand : c.InHand b held) (arena : d.arena = c.arena) : d.InHand b held := by
  rwa [InHand, arena]

/-- The first of the nodes in hand is on top of the last tree. -/
theorem inHand_cons : c.InHand b (id :: rest) ↔ ∃ ts t, b.Grows c.arena (ts ++ [t]) ∧
    ts.map Tree.id = rest.reverse ∧ t.id = id := by
  rw [InHand, List.reverse_cons]
  constructor
  · intro hand
    obtain ⟨ts, grows, same⟩ := hand
    obtain ⟨older, last, rfl, before, single⟩ := List.map_eq_append_iff.mp same
    obtain ⟨t, rfl, top⟩ := List.map_eq_singleton_iff.mp single
    exact ⟨older, t, grows, before, top⟩
  · intro last
    obtain ⟨ts, t, grows, before, rfl⟩ := last
    exact ⟨ts ++ [t], grows, by rw [List.map_append, before, List.map_singleton]⟩

theorem InHand.add {shape : Shape NodeId} (hand : c.InHand b (shape.children.reverse ++ rest))
    (token : Option Token) : (c.add shape token).2.InHand b ((c.add shape token).1 :: rest) := by
  obtain ⟨ts, grows, same⟩ := hand
  rw [List.reverse_append, List.reverse_reverse] at same
  obtain ⟨older, cs, rfl, before, last⟩ := List.map_eq_append_iff.mp same
  have nodup : (cs.map Tree.id).Nodup := by
    have all := grows.nodup
    rw [List.flatMap_append] at all
    exact (Tree.map_id_sublist cs).nodup (List.nodup_append.mp all).2.1
  obtain ⟨s, rfl, rfl⟩ := Shape.exists_trees last nodup
  exact inHand_cons.mpr ⟨older, .node c.arena.size s token false, grows.add token, before, rfl⟩

theorem InHand.freeze (hand : c.InHand b (id :: rest)) :
    (c.freeze id).InHand b (id :: rest) := by
  obtain ⟨ts, t, grows, before, rfl⟩ := inHand_cons.mp hand
  exact inHand_cons.mpr ⟨ts, t.freeze, grows.freeze, before, t.id_freeze⟩

theorem InHand.regroup (hand : c.InHand b (id :: rest)) :
    (c.regroup id).2.InHand b ((c.regroup id).1 :: rest) := by
  obtain ⟨ts, t, grows, before, rfl⟩ := inHand_cons.mp hand
  obtain ⟨grown, top⟩ := grows.regroup
  obtain ⟨-, -, -, arena⟩ := c.regroup_keeps t.id
  exact inHand_cons.mpr ⟨ts, t.grouped, arena ▸ grown, before, top.symm⟩

end Cursor

/-! Runs. -/

/-- Rules that are run within the depth take from the nodes in hand what they build on, and leave
the nodes of their value. When they fail they leave trees as well. -/
def Rule.Keep (b : Arena) (depth : Nat) : Prop :=
  ∀ {y : Yield} (rule : Rule y) (c : Cursor) (rest : List NodeId) (r : Cursor.Outcome y.Value),
    c.InHand b (rule.takes ++ rest) → rule.run depth c = some r →
    ∃ held, r.2.InHand b held ∧ ∀ a, r.1 = .ok a → held = y.held a ++ rest

namespace Parse

variable {α : Type} {b : Arena} {c d : Cursor} {depth : Nat} {held : List NodeId} {start : Point}

theorem Owns.act {action : Action} {next : action.Answer → Parse α}
    {post : α → List NodeId → Prop} {answer : Except Error action.Answer}
    (owns : (step action next).Owns held post) (calls : Rule.Keep b depth) (hand : c.InHand b held)
    (acted : act (Rule.run depth) action c = some (answer, d)) :
    ∃ held, d.InHand b held ∧ ∀ a, answer = .ok a → (next a).Owns held post := by
  cases action with
  | current =>
    cases acted
    refine ⟨held, hand, ?_⟩
    rintro _ ⟨⟩
    exact owns _
  | peek distance =>
    have arena := c.arena_peek distance
    cases acted
    exact ⟨held, hand.congr arena, fun kind _ => owns kind⟩
  | shift =>
    have arena := c.arena_shift
    rw [Option.some.inj acted] at arena
    exact ⟨held, hand.congr arena, fun token _ => owns token⟩
  | add shape token =>
    obtain ⟨rest, rfl, later⟩ := owns
    cases acted
    refine ⟨_, hand.add token, ?_⟩
    rintro _ ⟨⟩
    exact later _
  | inspect id =>
    cases acted
    exact ⟨held, hand, fun profile _ => owns profile⟩
  | settle id =>
    obtain ⟨rest, rfl, later⟩ := owns
    cases acted
    refine ⟨_, hand.regroup.freeze, ?_⟩
    rintro _ ⟨⟩
    exact later _
  | freeze id =>
    obtain ⟨⟨rest, rfl⟩, later⟩ := owns
    cases acted
    exact ⟨_, hand.freeze, fun answer _ => later answer⟩
  | announce =>
    cases acted
    exact ⟨held, hand, fun answer _ => owns answer⟩
  | call rule =>
    obtain ⟨rest, rfl, later⟩ := owns
    obtain ⟨left, after, value⟩ := calls rule c rest _ hand acted
    refine ⟨left, after, fun a ok => ?_⟩
    rw [value a ok]
    exact later a

theorem Owns.exec {p : Parse α} {post : α → List NodeId → Prop} {r : Cursor.Outcome α}
    (owns : p.Owns held post) (calls : Rule.Keep b depth) (hand : c.InHand b held)
    (ran : p.exec (Rule.run depth) start c = some r) :
    ∃ held, r.2.InHand b held ∧ ∀ a, r.1 = .ok a → post a held := by
  induction p generalizing c held with
  | done a =>
    cases ran
    refine ⟨held, hand, ?_⟩
    rintro _ ⟨⟩
    exact owns
  | fail blame fault =>
    cases blame <;> cases ran <;> exact ⟨held, hand, by simp⟩
  | step action next ih =>
    rw [Parse.exec] at ran
    split at ran
    · next answer d acted =>
      obtain ⟨left, after, later⟩ := owns.act calls hand acted
      exact ih answer (later answer rfl) after ran
    · next e d acted =>
      cases ran
      obtain ⟨left, after, -⟩ := owns.act calls hand acted
      exact ⟨left, after, by simp⟩
    · contradiction

end Parse

theorem Rule.keep (b : Arena) (depth : Nat) : Rule.Keep b depth := by
  induction depth with
  | zero =>
    intro y rule c rest r hand ran
    cases ran
  | succ depth ih =>
    intro y rule c rest r hand ran
    exact (rule.body_owns rest).exec ih hand ran

end ScriptSyntax
