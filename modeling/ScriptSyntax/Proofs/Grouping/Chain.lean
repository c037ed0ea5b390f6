import ScriptSyntax.Proofs.Editing.Wired

/-! The operators that regrouping takes apart, and the operands between them. An arena that holds
the chain and one that holds the grouped tree differ in the outer operands of those operators. -/
namespace ScriptSyntax

open ScriptSyntax.Tree (stack arrange arrangeInduction)

namespace Tree

variable {base : Tree} {links before after : List Link} {l : Link}

theorem stack_append (base : Tree) (before after : List Link) :
    stack base (before ++ after) = stack (stack base before) after :=
  List.foldl_append ..

theorem mem_nodes_stack (base : Tree) (links : List Link) : base ∈ (stack base links).nodes := by
  induction links using List.reverseRecOn with
  | nil => exact base.self_mem_nodes
  | append_singleton rest l ih =>
    rw [stack_append_singleton]
    have left : stack base rest ∈ (l.join (stack base rest) l.right).children := by
      simp [Link.children_join]
    exact nodes_trans ih (child_mem_nodes left (self_mem_nodes _))

theorem join_mem_nodes_stack :
    l.join (stack base before) l.right ∈ (stack base (before ++ l :: after)).nodes := by
  rw [← List.singleton_append, ← List.append_assoc, stack_append, stack_append_singleton]
  exact mem_nodes_stack ..

end Tree

namespace Arena

variable {a b : Arena} {base t : Tree} {links before after : List Link} {l last : Link}
  {i p r x y : NodeId} {rank : Nat}

/-- The operators that regrouping at `r` takes apart: `r`, where it is a ranked operator, and down
the left operands from it the operators that are no finished expressions. -/
inductive InChain (a : Arena) (r : NodeId) : NodeId → Prop where
  | top {rank : Nat} (ranked : a.rank? r = some rank) : InChain a r r
  | down {p i : NodeId} {rank : Nat} (above : InChain a r p) (left : a.left? p = some i)
      (opened : a.openRank? i = some rank) : InChain a r i

theorem InChain.ranked (chain : a.InChain r i) : ∃ rank, a.rank? r = some rank := by
  induction chain with
  | top ranked => exact ⟨_, ranked⟩
  | down _ _ _ ih => exact ih

theorem Stores.rank? (stores : a.Stores l x y) : a.rank? l.id = some l.rank := by
  obtain ⟨parent, stored⟩ := stores.stored
  rw [Arena.rank?, stored, Link.idShape]
  cases l.center <;> exact l.ranked

theorem Stores.openRank? (stores : a.Stores l x y) (opened : l.frozen = false) :
    a.openRank? l.id = some l.rank := by
  obtain ⟨parent, stored⟩ := stores.stored
  simp [Arena.openRank?, isFrozen, stored, opened, stores.rank?]

theorem Holds.stores_stack (held : a.Holds (stack base (before ++ l :: after))) :
    a.Stores l (stack base before).id l.right.id :=
  (holds_join.mp (held.of_mem Tree.join_mem_nodes_stack)).1

/-- In an arena that holds a chain the operators of the chain are those that regrouping at the last
one takes apart. -/
theorem Holds.inChain_iff (held : a.Holds (stack base (links ++ [last])))
    (closed : base.unlinkOpen? = none) (opened : ∀ l ∈ links, l.frozen = false) :
    a.InChain last.id i ↔ ∃ l ∈ links ++ [last], l.id = i := by
  constructor
  · intro chain
    have place : ∃ before l after, links ++ [last] = before ++ l :: after ∧ l.id = i := by
      induction chain with
      | top => exact ⟨links, last, [], rfl, rfl⟩
      | down _ left openRank ih =>
        obtain ⟨before, l, after, split, rfl⟩ := ih
        rw [split] at held
        rw [held.stores_stack.left?] at left
        obtain rfl := Option.some.inj left
        rcases List.eq_nil_or_concat before with rfl | ⟨rest, m, rfl⟩
        · have shown := held base (Tree.mem_nodes_stack base _)
          rw [Tree.stack_nil, shown.openRank?, closed] at openRank
          contradiction
        · rw [List.concat_eq_append] at split ⊢
          exact ⟨rest, m, l :: after, by simp [split], by simp⟩
    obtain ⟨before, l, after, split, same⟩ := place
    exact ⟨l, by simp [split], same⟩
  · intro ⟨l, member, same⟩
    subst same
    obtain ⟨before, after, split⟩ := List.append_of_mem member
    -- From the last operator down, each is the left operand of the one after it.
    induction after generalizing before l with
    | nil =>
      obtain ⟨rfl, rfl⟩ := List.append_singleton_inj.mp split
      exact .top held.stores_stack.rank?
    | cons n rest ih =>
      have above := ih n (by simp [split]) (before ++ [l]) (by simp [split])
      have inner : l ∈ links := by
        have front := congrArg List.dropLast split
        rw [List.dropLast_concat] at front
        rw [front]
        simp
      rw [split] at held
      have lower := held.stores_stack
      rw [← List.singleton_append, ← List.append_assoc] at held
      refine .down above ?_ (lower.openRank? (opened l inner))
      rw [held.stores_stack.left?, Tree.stack_append_singleton, Link.id_join]

theorem id_arrange (base : Tree) (some : links ≠ []) :
    ∃ l ∈ links, (arrange base links).id = l.id := by
  induction base, links using arrangeInduction with
  | single => contradiction
  | split base before top after ahead behind =>
    rw [Tree.arrange_append base ahead behind]
    exact ⟨top, by simp, rfl⟩

/-- The operators and the operands of a chain after grouping. -/
theorem Holds.of_arrange (held : a.Holds (arrange base links)) :
    a.Holds base ∧ ∀ l ∈ links, (∃ x y, a.Stores l x y) ∧ a.Holds l.right := by
  induction base, links using arrangeInduction with
  | single base => exact ⟨by simpa using held, by simp⟩
  | split base before top after ahead behind first second =>
    rw [Tree.arrange_append base ahead behind] at held
    obtain ⟨stores, left, right⟩ := holds_join.mp held
    obtain ⟨lowest, earlier⟩ := first left.held
    obtain ⟨operand, later⟩ := second right.held
    rw [List.forall_mem_append, List.forall_mem_cons]
    exact ⟨lowest, earlier, ⟨⟨_, _, stores⟩, operand⟩, later⟩

/-- Two arenas that hold the same tree agree on its nodes, apart from where they hang. -/
theorem Holds.node?_eq (first : a.Holds t) (second : b.Holds t) (inside : i ∈ t.ids) :
    b.node? i = (a.node? i).map fun n => { n with parent := b.parent? i } := by
  obtain ⟨q, member, rfl⟩ := List.mem_map.mp inside
  obtain ⟨parent, stored⟩ := (first q member).stored
  obtain ⟨parent', stored'⟩ := (second q member).stored
  simp [Arena.parent?, stored, stored']

/-- Below a chain nothing changes when it is grouped, apart from its operators and from where the
operands hang. -/
theorem Holds.node?_eq_or_operator (first : a.Holds (stack base links))
    (second : b.Holds (arrange base links)) (inside : i ∈ (stack base links).ids) :
    b.node? i = (a.node? i).map (fun n => { n with parent := b.parent? i }) ∨
      ∃ l ∈ links, l.id = i := by
  obtain ⟨lowest, waits⟩ := Grouping.waits_stack first
  obtain ⟨lowest', operators⟩ := second.of_arrange
  rw [(Tree.ids_stack ..).mem_iff, List.mem_append, List.mem_flatMap] at inside
  rcases inside with below | ⟨l, member, own⟩
  · exact .inl (lowest.node?_eq lowest' below)
  obtain ⟨⟨x, stores⟩, right⟩ := waits l member
  obtain ⟨⟨x', y', stores'⟩, right'⟩ := operators l member
  rw [Link.ids, List.mem_cons, List.mem_append, List.mem_flatMap] at own
  rcases own with rfl | ⟨c, center, below⟩ | below
  · exact .inr ⟨l, member, rfl⟩
  · rw [Option.mem_toList] at center
    exact .inl ((stores.center c center).held.node?_eq (stores'.center c center).held below)
  · exact .inl (right.held.node?_eq right' below)

/-- An operator of the chain is the same after grouping but for its outer operands. -/
theorem Holds.node?_operator (first : a.Holds (stack base links))
    (second : b.Holds (arrange base links)) (member : l ∈ links) :
    ∃ n x y, a.node? l.id = some n ∧ b.node? l.id =
      some { n with shape := (n.shape.withLeft x).withRight y, parent := b.parent? l.id } := by
  obtain ⟨⟨x, stores⟩, -⟩ := (Grouping.waits_stack first).2 l member
  obtain ⟨⟨x', y', stores'⟩, -⟩ := second.of_arrange.2 l member
  obtain ⟨parent, stored⟩ := stores.stored
  obtain ⟨parent', stored'⟩ := stores'.stored
  refine ⟨_, x', y', stored, ?_⟩
  simp [Arena.parent?, stored']

end Arena
end ScriptSyntax
