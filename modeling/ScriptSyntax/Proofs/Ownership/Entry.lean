import ScriptSyntax.Proofs.Grouping.Linked
import ScriptSyntax.Proofs.Ownership.Run
import ScriptSyntax.Proofs.Progress.Run

/-! The functions of the grammar that are called from outside touch only the nodes that they make,
whether they succeed or fail. -/
namespace ScriptSyntax

namespace Arena

variable {a b : Arena} {ts : List Tree} {i : NodeId}

theorem Grows.children_eq (grows : b.Grows a ts) (old : i < b.size) :
    a.children i = b.children i := by
  rw [Arena.children, Arena.shape?, grows.kept i old]
  rfl

theorem Grows.parent?_eq (grows : b.Grows a ts) (old : i < b.size) :
    a.parent? i = b.parent? i := by
  rw [Arena.parent?, grows.kept i old]
  rfl

/-- Old nodes are linked among themselves, and so are the nodes of each tree. -/
theorem Grows.agrees (grows : b.Grows a ts) (agrees : b.Agrees) : a.Agrees := by
  intro c p
  constructor
  · intro child
    have inside := lt_size_of_child child
    by_cases old : p < b.size
    · rw [grows.children_eq old, agrees] at child
      rw [grows.parent?_eq (lt_size_of_parent? child)]
      exact child
    · obtain ⟨t, tree, member⟩ :=
        List.mem_flatMap.mp ((grows.cover p).mpr ⟨Nat.le_of_not_lt old, inside⟩)
      obtain ⟨n, node, rfl⟩ := List.mem_map.mp member
      have shown := grows.holds t tree n node
      rw [shown.children] at child
      obtain ⟨d, below, rfl⟩ := List.mem_map.mp child
      exact shown.adopted d below
  · intro under
    have inside := lt_size_of_parent? under
    by_cases old : c < b.size
    · rw [grows.parent?_eq old] at under
      have child := (agrees c p).mpr under
      rw [grows.children_eq (lt_size_of_child child)]
      exact child
    · obtain ⟨t, tree, member⟩ :=
        List.mem_flatMap.mp ((grows.cover c).mpr ⟨Nat.le_of_not_lt old, inside⟩)
      have below : c ≠ t.id := by
        rintro rfl
        simp [grows.loose t tree] at under
      obtain ⟨n, node, d, child, rfl⟩ := Tree.exists_holder member below
      have shown := grows.holds t tree n node
      rw [shown.adopted d child] at under
      cases under
      rw [shown.children]
      exact List.mem_map_of_mem child

end Arena

namespace Cursor.InHand

variable {c : Cursor} {b : Arena} {held : List NodeId} {id : NodeId}

theorem kept (hand : c.InHand b held) : ∀ i < b.size, c.arena.node? i = b.node? i := by
  obtain ⟨ts, grows, -⟩ := hand
  exact grows.kept

theorem agrees (hand : c.InHand b held) (agrees : b.Agrees) : c.arena.Agrees := by
  obtain ⟨ts, grows, -⟩ := hand
  exact grows.agrees agrees

theorem loose (hand : c.InHand b held) (member : id ∈ held) :
    b.size ≤ id ∧ id < c.arena.size ∧ c.arena.parent? id = none := by
  obtain ⟨ts, grows, same⟩ := hand
  rw [← List.mem_reverse, ← same] at member
  obtain ⟨t, tree, rfl⟩ := List.mem_map.mp member
  obtain ⟨new, inside⟩ := (grows.cover t.id).mp (List.mem_flatMap.mpr ⟨t, tree, t.id_mem_ids⟩)
  exact ⟨new, inside, grows.loose t tree⟩

end Cursor.InHand

/-- The functions of the grammar that are called from outside. -/
inductive Entry : Yield → Type where
  | block (stops : List Kind) : Entry .node
  | statement : Entry .node
  | directive : Entry .node
  | declaration (typed : Bool) : Entry .node
  | expression (stops : List Kind) (assignable : Bool) : Entry .node
  | term (stops : List Kind) : Entry .node
  | arguments (close : Kind) : Entry .nodes
  | collection : Entry .node
  | construct (stops : List Kind) : Entry .node

namespace Entry

variable {y : Yield} {c : Cursor}

def parse : {y : Yield} → Entry y → Parse y.Value
  | _, block stops => Grammar.block stops
  | _, statement => Parse.call .statement
  | _, directive => Grammar.directive
  | _, declaration typed => Grammar.declaration typed
  | _, expression stops assignable => Parse.call (.expression stops assignable)
  | _, term stops => Parse.call (.term stops)
  | _, arguments close => Grammar.arguments close
  | _, collection => Grammar.collection
  | _, construct stops => Grammar.construct stops

/-- With nothing in hand, a parse leaves the nodes of its value. -/
theorem owns (e : Entry y) : e.parse.Owns [] fun a held => held = y.held a := by
  cases e with
  | block stops => simp [parse]
  | statement => simp [parse, Rule.takes]
  | directive => exact Grammar.directive_owns
  | declaration typed => simp [parse]
  | expression stops assignable => simp [parse, Rule.takes]
  | term stops => simp [parse, Rule.takes]
  | arguments close => simp [parse]
  | collection => exact Grammar.collection_owns
  | construct stops => exact Grammar.construct_owns

theorem proceeds (e : Entry y) (kind : Kind) : e.parse.Proceeds 4 false kind fun _ _ _ => True := by
  cases e with
  | block stops => simp [parse, Grammar.block, Rule.rank]
  | statement => simp [parse, Rule.rank]
  | directive => exact Grammar.directive_moves.imp fun _ _ _ _ => trivial
  | declaration typed =>
    exact (Grammar.declaration_moves typed (.inr (by decide))).imp fun _ _ _ _ => trivial
  | expression stops assignable => simp [parse, Rule.rank]
  | term stops => simp [parse, Rule.rank]
  | arguments close => simp [parse, Grammar.arguments, Rule.rank]
  | collection => exact Grammar.collection_moves.imp fun _ _ _ _ => trivial
  | construct stops => exact (Grammar.construct_moves stops).imp fun _ _ _ _ => trivial

theorem inHand (e : Entry y) (c : Cursor) : ∃ held, (c.run e.parse).2.InHand c.arena held ∧
    ∀ v, (c.run e.parse).1 = .ok v → held = y.held v := by
  rw [Cursor.run]
  cases ran : e.parse.exec (Rule.run c.depth) c.point c with
  | none => exact ⟨[], c.inHand_self, by simp⟩
  | some r => exact e.owns.exec (Rule.keep c.arena c.depth) c.inHand_self ran

/-- Whether a call succeeds or fails, the nodes that were there stay as they were, links agree
again, and the nodes that it gives hang nowhere yet. Calls end. -/
theorem run_frame (e : Entry y) (c : Cursor) (agrees : c.arena.Agrees) :
    (∀ i < c.arena.size, (c.run e.parse).2.arena.node? i = c.arena.node? i) ∧
    (c.run e.parse).2.arena.Agrees ∧
    (∀ v, (c.run e.parse).1 = .ok v → ∀ id ∈ y.held v, c.arena.size ≤ id ∧
      id < (c.run e.parse).2.arena.size ∧ (c.run e.parse).2.arena.parent? id = none) ∧
    ∀ s, c.Follows s → e.parse.exec (Rule.run c.depth) c.point c = some (c.run e.parse) := by
  obtain ⟨held, hand, value⟩ := e.inHand c
  refine ⟨hand.kept, hand.agrees agrees, ?_, ?_⟩
  · intro v ok id member
    rw [← value v ok] at member
    exact hand.loose member
  · intro s follows
    exact Cursor.run_eq_of_ends (follows.run (e.proceeds c.current.kind)) (Nat.le_refl c.depth)

/-- A cursor at the start of `x * (y`, whose arena holds `x + x * x` already. -/
def unclosed : Cursor :=
  let first := (Scanner.ofText "x * (y" none).next
  ⟨first.2, first.1.toOption.getD (.canonical .eof .null), [], Arena.sumUnderProduct, []⟩

theorem follows_unclosed : unclosed.Follows (.ofText "x * (y" none) := by
  have read : (Scanner.ofText "x * (y" none).next = (.ok unclosed.current, unclosed.scanner) := by
    decide +kernel
  exact ⟨[], .cons read .nil⟩

/-- The expression is never closed and leaves two names behind, the term is the first of them. -/
theorem run_frame_unclosed : unclosed.arena.Agrees ∧ unclosed.arena.size = 5 ∧
    ((unclosed.run (expression [.eol] false).parse).1.toBool = false ∧
      (unclosed.run (expression [.eol] false).parse).2.arena.size = 7 ∧
      (∀ i < 5, (unclosed.run (expression [.eol] false).parse).2.arena.node? i =
        unclosed.arena.node? i) ∧
      (unclosed.run (expression [.eol] false).parse).2.arena.Agrees ∧
      (expression [.eol] false).parse.exec (Rule.run unclosed.depth) unclosed.point unclosed =
        some (unclosed.run (expression [.eol] false).parse)) ∧
    (unclosed.run (term [.eol]).parse).1 = .ok 5 ∧
    (unclosed.run (term [.eol]).parse).2.arena.parent? 5 = none := by
  have agrees : unclosed.arena.Agrees := Arena.wellLinked_sumUnderProduct.agree
  obtain ⟨kept, linked, -, ends⟩ := (expression [.eol] false).run_frame unclosed agrees
  obtain ⟨-, -, loose, -⟩ := (term [.eol]).run_frame unclosed agrees
  have failed : (unclosed.run (expression [.eol] false).parse).1.toBool = false := by
    decide +kernel
  have grown : (unclosed.run (expression [.eol] false).parse).2.arena.size = 7 := by
    decide +kernel
  have ok : (unclosed.run (term [.eol]).parse).1 = .ok 5 := by rfl
  have top : (unclosed.run (term [.eol]).parse).2.arena.parent? 5 = none :=
    (loose 5 ok 5 List.mem_cons_self).2.2
  exact ⟨agrees, rfl, ⟨failed, grown, kept, linked, ends _ follows_unclosed⟩, ok, top⟩

end Entry

end ScriptSyntax
