import Mathlib.Logic.Relation
import Mathlib.Order.WellFoundedSet
import ScriptSyntax.Proofs.Grouping.Regroup

/-! An arena whose links agree holds a tree under every node, so regrouping can be told for it
without saying beforehand what it holds. -/
namespace ScriptSyntax

open ScriptSyntax.Tree (stack arrange)

namespace Arena

variable {a : Arena} {t : Tree} {i c p : NodeId}

def IsChild (a : Arena) (c p : NodeId) : Prop := c ∈ a.children p

/-- A node is in a slot of just the node that it has for a parent. -/
def Agrees (a : Arena) : Prop := ∀ c p, c ∈ a.children p ↔ a.parent? c = some p

/-- Children and parents agree, no slot repeats a node, and no node is its own descendant. -/
structure WellLinked (a : Arena) : Prop where
  agree : ∀ c p, c ∈ a.children p ↔ a.parent? c = some p
  once : ∀ p, (a.children p).Nodup
  acyclic : ∀ c, ¬ Relation.TransGen a.IsChild c c

/-- Every node in a slot names its holder as its parent, no slot repeats a node, and no node is its
own descendant. A node may name a parent that no longer holds it. -/
structure Wired (a : Arena) : Prop where
  under : ∀ c p, c ∈ a.children p → a.parent? c = some p
  once : ∀ p, (a.children p).Nodup
  acyclic : ∀ c, ¬ Relation.TransGen a.IsChild c c

theorem WellLinked.wired (linked : a.WellLinked) : a.Wired where
  under c p := (linked.agree c p).mp
  once := linked.once
  acyclic := linked.acyclic

theorem lt_size_of_rank? {rank : Nat} (ranked : a.rank? i = some rank) : i < a.size := by
  by_cases bound : i < a.size
  · exact bound
  · simp [Arena.rank?, node?_eq_none bound] at ranked

/-- A node is held once its children are. -/
theorem Wired.exists_tree (wired : a.Wired) (bound : i < a.size) :
    ∃ t, a.Holds t ∧ t.id = i := by
  have order : IsStrictOrder NodeId (Relation.TransGen a.IsChild) :=
    { irrefl := wired.acyclic, trans := fun _ _ _ => Relation.TransGen.trans }
  have founded : {i | i < a.size}.WellFoundedOn (Relation.TransGen a.IsChild) :=
    (Set.finite_lt_nat a.size).wellFoundedOn
  refine founded.induction bound (P := fun i => ∃ t, a.Holds t ∧ t.id = i) ?_
  intro i bound ih
  obtain ⟨n, stored⟩ : ∃ n, a.node? i = some n := ⟨_, Array.getElem?_eq_getElem bound⟩
  have children : n.shape.children = a.children i := by
    simp [Arena.children, Arena.shape?, stored]
  have below : ∀ c, ∃ t : Tree, c ∈ n.shape.children → a.Holds t ∧ t.id = c := by
    intro c
    by_cases child : c ∈ n.shape.children
    · rw [children] at child
      obtain ⟨t, held⟩ := ih c (lt_size_of_parent? (wired.under c i child)) (.single child)
      exact ⟨t, fun _ => held⟩
    · exact ⟨default, fun h => absurd h child⟩
  choose tree held using below
  have same : (n.shape.map tree).map Tree.id = n.shape := by
    rw [Shape.map_map, Shape.map_congr _ fun c child => (held c child).2, Shape.map_self]
  refine ⟨.node i (n.shape.map tree) n.token n.frozen, holds_iff.mpr ⟨⟨?_, ?_⟩, ?_⟩, rfl⟩
  · refine ⟨n.parent, ?_⟩
    rw [Tree.shape_node, same]
    exact stored
  all_goals
    intro d child
    rw [Tree.children_node, Shape.children_map] at child
    obtain ⟨c, member, rfl⟩ := List.mem_map.mp child
  · rw [(held c member).2]
    rw [children] at member
    exact wired.under c i member
  · exact (held c member).1

/-- What a tree holds is what its top node has below it. -/
theorem Holds.reaches (held : a.Holds t) (member : i ∈ t.ids) :
    Relation.ReflTransGen a.IsChild i t.id := by
  induction t using Tree.ofChildren with
  | step t ih =>
    rcases Tree.mem_ids_iff.mp member with rfl | ⟨c, child, inside⟩
    · exact .refl
    · have step : a.IsChild c.id t.id := by
        rw [IsChild, (held t t.self_mem_nodes).children]
        exact List.mem_map_of_mem child
      exact (ih c child ((holds_iff.mp held).2 c child) inside).tail step

theorem Wired.rightUnique (wired : a.Wired) : Relator.RightUnique a.IsChild := by
  intro c p q first second
  have under := wired.under c p first
  rw [wired.under c q second] at under
  exact (Option.some.inj under).symm

/-- The nodes over a node make one path, so a path from one sibling to another would go through
their parent and back to it. -/
theorem Wired.not_reaches_sibling {d : NodeId} (wired : a.Wired)
    (first : a.IsChild c p) (second : a.IsChild d p) (apart : c ≠ d) :
    ¬ Relation.ReflTransGen a.IsChild c d := by
  intro path
  rcases path.cases_head with same | ⟨q, up, rest⟩
  · exact apart same
  · rw [wired.rightUnique up first] at rest
    exact wired.acyclic p (.tail' rest second)

theorem Wired.nodup (wired : a.Wired) (held : a.Holds t) : t.ids.Nodup := by
  induction t using Tree.ofChildren with
  | step t ih =>
    obtain ⟨shown, below⟩ := holds_iff.mp held
    have step : ∀ c ∈ t.children, a.IsChild c.id t.id := by
      intro c child
      rw [IsChild, shown.children]
      exact List.mem_map_of_mem child
    rw [Tree.ids_eq, List.nodup_cons, List.nodup_flatMap]
    refine ⟨?_, fun c child => ih c child (below c child), ?_⟩
    · intro again
      obtain ⟨c, child, inside⟩ := List.mem_flatMap.mp again
      exact wired.acyclic t.id (.tail' ((below c child).reaches inside) (step c child))
    · have distinct := wired.once t.id
      rw [shown.children, List.Nodup, List.pairwise_map] at distinct
      refine distinct.imp_of_mem ?_
      intro c d hc hd apart i inFirst inSecond
      have first := (below c hc).reaches inFirst
      have second := (below d hd).reaches inSecond
      rcases Relation.ReflTransGen.total_of_right_unique wired.rightUnique first second
        with path | path
      · exact wired.not_reaches_sibling (step c hc) (step d hd) apart path
      · exact wired.not_reaches_sibling (step d hd) (step c hc) apart.symm path

theorem WellLinked.exists_tree (linked : a.WellLinked) (bound : i < a.size) :
    ∃ t, a.Holds t ∧ t.id = i :=
  linked.wired.exists_tree bound

theorem WellLinked.nodup (linked : a.WellLinked) (held : a.Holds t) : t.ids.Nodup :=
  linked.wired.nodup held

/-- No node is its own descendant where children are older than the nodes that hold them. -/
theorem wellLinked_of_older (down : ∀ p < a.size, ∀ c ∈ a.children p, c < p ∧ a.parent? c = some p)
    (up : ∀ c < a.size, ∀ p ∈ a.parent? c, c ∈ a.children p)
    (once : ∀ p < a.size, (a.children p).Nodup) : a.WellLinked := by
  have child (c p : NodeId) (member : c ∈ a.children p) : c < p ∧ a.parent? c = some p :=
    down p (lt_size_of_child member) c member
  have older (c p : NodeId) (path : Relation.TransGen a.IsChild c p) : c < p := by
    induction path with
    | single step => exact (child _ _ step).1
    | tail _ step ih => exact ih.trans (child _ _ step).1
  constructor
  case agree =>
    intro c p
    constructor
    · intro member
      exact (child c p member).2
    · intro under
      exact up c (lt_size_of_parent? under) p under
  case once =>
    intro p
    by_cases bound : p < a.size
    · exact once p bound
    · simp [Arena.children, Arena.shape?, node?_eq_none bound]
  case acyclic =>
    intro c cycle
    exact Nat.lt_irrefl c (older c c cycle)

/-- Regrouping at a ranked operator gives the tree that precedence asks for, made of the same
operators and the same operands; at any other node it does nothing. -/
theorem WellLinked.regroup_eq_arrange (linked : a.WellLinked) (r : NodeId) :
    (∀ rank, a.rank? r = some rank → ∃ base links last, last.id = r ∧
      a.Holds (stack base (links ++ [last])) ∧ (∀ l ∈ links, l.frozen = false) ∧
      base.unlinkOpen? = none ∧
      (a.regroup r).1 = (arrange base (links ++ [last])).id ∧
      (a.regroup r).2.1.Holds (arrange base (links ++ [last]))) ∧
    (a.rank? r = none → a.regroup r = (r, a, [])) := by
  refine ⟨?_, regroup_of_rank?_none⟩
  intro rank ranked
  obtain ⟨t, held, rfl⟩ := linked.exists_tree (lt_size_of_rank? ranked)
  have own : ∀ p, a.parent? t.id = some p → p ∉ t.ids := fun p under inside =>
    linked.acyclic p (.tail' (held.reaches inside) ((linked.agree t.id p).mpr under))
  have regroups := held.regroup (linked.nodup held) own
  rw [(held t t.self_mem_nodes).rank?] at ranked
  obtain ⟨⟨left, last⟩, unlinked, -⟩ := Option.map_eq_some_iff.mp ranked
  obtain ⟨-, opened, closed⟩ := Tree.chain_spec left
  have whole := Tree.stack_chain_of_unlink? unlinked
  have same := Tree.grouped_of_unlink? unlinked
  refine ⟨left.chain.1, left.chain.2, last, ?_, whole ▸ held, opened, closed, ?_, ?_⟩
  · rw [Tree.unlink?_eq_some.mp unlinked]
    rfl
  · rw [← same]
    exact regroups.top
  · rw [← same]
    exact regroups.held

/-- The nodes of `x + x * x` as they are read, the product over the sum. -/
def sumUnderProduct : Arena :=
  let operand : Node := ⟨.name, some ⟨.var, "x", .null⟩, none, false⟩
  ⟨#[{ operand with parent := some 2 }, { operand with parent := some 2 },
    ⟨.binaryOp 0 1, some (.canonical .add .null), some 4, false⟩,
    { operand with parent := some 4 },
    ⟨.binaryOp 2 3, some (.canonical .multiply .null), none, false⟩], none⟩

theorem wellLinked_sumUnderProduct : sumUnderProduct.WellLinked :=
  wellLinked_of_older (by decide) (by decide) (by decide)

theorem regroup_sumUnderProduct : sumUnderProduct.WellLinked ∧
    ∃ base links last, last.id = 4 ∧ sumUnderProduct.Holds (stack base (links ++ [last])) ∧
      (sumUnderProduct.regroup 4).1 = 2 ∧
      (sumUnderProduct.regroup 4).2.1.Holds (arrange base (links ++ [last])) := by
  refine ⟨wellLinked_sumUnderProduct, ?_⟩
  obtain ⟨base, links, last, id, held, -, -, -, after⟩ :=
    (wellLinked_sumUnderProduct.regroup_eq_arrange 4).1 5 (by decide)
  exact ⟨base, links, last, id, held, by decide, after⟩

end Arena
end ScriptSyntax
