import Mathlib.Logic.Relation
import ScriptSyntax.Proofs.Program.Accepted

/-! The arena of an accepted program is spanned by one tree. -/
namespace ScriptSyntax

namespace Arena

variable {a b : Arena} {t : Tree} {i : NodeId}

/-- All nodes hang together in one tree under `r`. Every other node occurs in exactly one slot, and
the node that has the slot is its parent. -/
structure Spans (a : Arena) (r : NodeId) : Prop where
  root : a.root = some r
  inside : r < a.size
  top : a.parent? r = none
  unheld : ∀ p, r ∉ a.children p
  held : ∀ i < a.size, i ≠ r → ∃ p, a.parent? i = some p ∧ (a.children p).count i = 1 ∧
    ∀ q, i ∈ a.children q → q = p
  reaches : ∀ i < a.size, Relation.ReflTransGen (fun c p => a.parent? c = some p) i r
  bounded : ∀ p, ∀ c ∈ a.children p, c < a.size

/-- Setting the root changes no node that hangs nowhere. -/
theorem node?_setRoot_of_loose (loose : b.parent? t.id = none) :
    (b.setRoot t.id).node? i = b.node? i := by
  rw [show (b.setRoot t.id).node? i = (b.setParent t.id none).node? i from rfl, setParent,
    node?_update]
  split
  · next same =>
    subst same
    rw [Arena.parent?] at loose
    cases stored : b.node? t.id with
    | none => rfl
    | some n =>
      cases n
      simp_all
  · rfl

/-- In an arena that is one tree, a node hangs under the node that has it in a slot. -/
theorem Holds.parent?_of_child (held : a.Holds t) (cover : ∀ i, i ∈ t.ids ↔ i < a.size)
    {c p : NodeId} (child : c ∈ a.children p) : a.parent? c = some p := by
  obtain ⟨n, member, rfl⟩ := List.mem_map.mp ((cover p).mpr (lt_size_of_child child))
  rw [(held n member).children] at child
  obtain ⟨d, inner, rfl⟩ := List.mem_map.mp child
  exact (held n member).adopted d inner

theorem Holds.climbs (held : a.Holds t) (member : i ∈ t.ids) :
    Relation.ReflTransGen (fun c p => a.parent? c = some p) i t.id := by
  induction t using Tree.ofChildren with
  | step t ih =>
    obtain ⟨shown, below⟩ := holds_iff.mp held
    rcases Tree.mem_ids_iff.mp member with rfl | ⟨c, child, inside⟩
    · exact .refl
    · exact (ih c child (below c child) inside).tail (shown.adopted c child)

theorem IsForest.holds_setRoot (forest : b.IsForest [t]) : (b.setRoot t.id).Holds t :=
  (forest.holds t (by simp)).congr_all fun i _ => node?_setRoot_of_loose (forest.loose t (by simp))

/-- A forest of one tree spans its arena, once the tree is the root. -/
theorem IsForest.spans (forest : b.IsForest [t]) : (b.setRoot t.id).Spans t.id := by
  have loose := forest.loose t (by simp)
  have size : (b.setRoot t.id).size = b.size := size_update ..
  have nodup : t.ids.Nodup := nodup_of_mem forest.nodup (by simp)
  have cover (i : NodeId) : i ∈ t.ids ↔ i < (b.setRoot t.id).size := by
    rw [size, ← forest.mem_ids_iff]
    simp
  have held := forest.holds_setRoot
  have top : (b.setRoot t.id).parent? t.id = none := by
    rw [Arena.parent?, node?_setRoot_of_loose loose]
    exact loose
  constructor
  case root => rfl
  case inside => exact (cover _).mp t.id_mem_ids
  case top => exact top
  case unheld =>
    intro p child
    have adopted := held.parent?_of_child cover child
    rw [top] at adopted
    contradiction
  case held =>
    intro i bound other
    obtain ⟨p, member, c, child, rfl⟩ := Tree.exists_holder ((cover i).mpr bound) other
    have adopted := (held p member).adopted c child
    refine ⟨p.id, adopted, ?_, ?_⟩
    · rw [(held p member).children]
      exact List.count_eq_one_of_mem (Tree.nodup_children nodup member) (List.mem_map_of_mem child)
    · intro q holds
      have again := held.parent?_of_child cover holds
      rw [adopted] at again
      exact (Option.some.inj again).symm
  case reaches =>
    intro i bound
    exact held.climbs ((cover i).mpr bound)
  case bounded =>
    intro p c child
    exact lt_size_of_parent? (held.parent?_of_child cover child)

end Arena

variable {source : String} {file : Option String} {a : Arena}

/-- The tree of an accepted program spans its arena, and its root is a block. -/
theorem parse_spans (accepted : parse source file = .ok a) :
    ∃ r statements, a.Spans r ∧ a.shape? r = some (.block statements) := by
  obtain ⟨ts, last, b, t, program, rfl⟩ := parse_accepted accepted
  have loose := program.forest.loose t (by simp)
  have shown := program.forest.holds t (by simp) t t.self_mem_nodes
  obtain ⟨bs, block⟩ : ∃ bs, t.shape = .block bs := by
    cases program.derives
    exact ⟨_, rfl⟩
  refine ⟨t.id, bs.map Tree.id, program.forest.spans, ?_⟩
  rw [Arena.shape?, Arena.node?_setRoot_of_loose loose]
  exact shown.shape?.trans (by rw [block]; rfl)

/-- Regrouping has hung the product below the sum, which was made before it. -/
theorem parse_spans_sum : ∃ a, parse "x = a + b * c;" none = .ok a ∧
    (a.size = 8 ∧ a.root = some 7 ∧ a.shape? 7 = some (.block [6]) ∧ a.parent? 6 = some 7 ∧
      a.shape? 6 = some (.assignment 0 3 false) ∧ a.parent? 3 = some 6 ∧
      a.shape? 3 = some (.binaryOp 1 5) ∧ a.parent? 5 = some 3 ∧
      a.shape? 5 = some (.binaryOp 2 4) ∧ a.parent? 4 = some 5) ∧
    ∃ r statements, a.Spans r ∧ a.shape? r = some (.block statements) :=
  exists_parse (by decide +kernel) fun _ => parse_spans

end ScriptSyntax
