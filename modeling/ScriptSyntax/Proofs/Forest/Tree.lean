import ScriptSyntax.Tree.Arena

/-! Trees with the ids of their nodes: what an arena holds below a node, apart from how it is
stored. A tree has the trees of its children in the slots of its shape. -/
namespace ScriptSyntax

inductive Tree where
  | node (id : NodeId) (shape : Shape Tree) (token : Option Token) (frozen : Bool)

namespace Tree

def id : Tree → NodeId
  | node id _ _ _ => id

def shape : Tree → Shape Tree
  | node _ shape _ _ => shape

def token : Tree → Option Token
  | node _ _ token _ => token

def frozen : Tree → Bool
  | node _ _ _ frozen => frozen

def children (t : Tree) : List Tree := t.shape.children

def freeze : Tree → Tree
  | node id shape token _ => node id shape token true

variable {i : NodeId} {s : Shape Tree} {k : Option Token} {f : Bool}

@[simp] theorem id_node : (node i s k f).id = i := rfl

@[simp] theorem shape_node : (node i s k f).shape = s := rfl

@[simp] theorem token_node : (node i s k f).token = k := rfl

@[simp] theorem frozen_node : (node i s k f).frozen = f := rfl

@[simp] theorem children_node : (node i s k f).children = s.children := rfl

@[simp] theorem freeze_node : (node i s k f).freeze = node i s k true := rfl

@[simp] theorem id_freeze (t : Tree) : t.freeze.id = t.id := by
  cases t; rfl

@[simp] theorem shape_freeze (t : Tree) : t.freeze.shape = t.shape := by
  cases t; rfl

@[simp] theorem token_freeze (t : Tree) : t.freeze.token = t.token := by
  cases t; rfl

@[simp] theorem children_freeze (t : Tree) : t.freeze.children = t.children := by
  cases t; rfl

instance : Inhabited Tree := ⟨node 0 .noOp none false⟩

theorem sizeOf_child {s : Shape Tree} {c : Tree} (member : c ∈ s.children) :
    sizeOf c < sizeOf s := by
  have inList (l : List Tree) (h : c ∈ l) : sizeOf c < sizeOf l := List.sizeOf_lt_of_mem h
  have inOption (o : Option Tree) (h : o = some c) : sizeOf c < sizeOf o := by subst h; simp
  have inPairs (l : List (Tree × Tree)) (a b : Tree) (h : (a, b) ∈ l) (eq : c = a ∨ c = b) :
      sizeOf c < sizeOf l := by
    have := List.sizeOf_lt_of_mem h
    rcases eq with rfl | rfl <;> simp at this <;> omega
  cases s <;> simp [Shape.children] at member ⊢ <;> grind

/-- Induction from the children to the tree. -/
@[elab_as_elim] theorem ofChildren {P : Tree → Prop}
    (step : ∀ t : Tree, (∀ c ∈ t.children, P c) → P t) (t : Tree) : P t :=
  step t fun c _ => ofChildren step c
termination_by sizeOf t
decreasing_by
  have := sizeOf_child ‹c ∈ t.children›
  cases t
  simp at this ⊢
  omega

/-- The tree and every tree below it, each before those below it. -/
def nodes (t : Tree) : List Tree :=
  t :: t.children.attach.flatMap fun c => c.1.nodes
termination_by sizeOf t
decreasing_by
  have := sizeOf_child c.2
  cases t
  simp at this ⊢
  omega

def ids (t : Tree) : List NodeId := t.nodes.map id

theorem nodes_eq (t : Tree) : t.nodes = t :: t.children.flatMap nodes := by
  rw [nodes]
  simp

theorem ids_eq (t : Tree) : t.ids = t.id :: t.children.flatMap ids := by
  simp only [ids, nodes_eq t, List.map_cons, List.map_flatMap]
  rfl

theorem self_mem_nodes (t : Tree) : t ∈ t.nodes := by
  rw [nodes_eq]
  exact List.mem_cons_self

theorem mem_nodes_iff {p t : Tree} : p ∈ t.nodes ↔ p = t ∨ ∃ c ∈ t.children, p ∈ c.nodes := by
  rw [nodes_eq, List.mem_cons, List.mem_flatMap]

theorem id_mem_ids (t : Tree) : t.id ∈ t.ids :=
  List.mem_map_of_mem t.self_mem_nodes

theorem mem_ids_iff {i : NodeId} {t : Tree} :
    i ∈ t.ids ↔ i = t.id ∨ ∃ c ∈ t.children, i ∈ c.ids := by
  rw [ids_eq, List.mem_cons, List.mem_flatMap]

theorem nodes_trans {p q t : Tree} (inner : p ∈ q.nodes) (outer : q ∈ t.nodes) : p ∈ t.nodes := by
  induction t using ofChildren with
  | step t ih =>
    rcases mem_nodes_iff.mp outer with rfl | ⟨c, member, below⟩
    · exact inner
    · exact mem_nodes_iff.mpr (.inr ⟨c, member, ih c member below⟩)

theorem child_mem_nodes {c p t : Tree} (child : c ∈ p.children) (outer : p ∈ t.nodes) :
    c ∈ t.nodes :=
  nodes_trans (mem_nodes_iff.mpr (.inr ⟨c, child, c.self_mem_nodes⟩)) outer

theorem nodes_sublist {p t : Tree} (member : p ∈ t.nodes) : p.nodes.Sublist t.nodes := by
  induction t using ofChildren with
  | step t ih =>
    rcases mem_nodes_iff.mp member with rfl | ⟨c, child, inner⟩
    · exact List.Sublist.refl _
    · rw [nodes_eq t, List.flatMap_def]
      have below : c.nodes.Sublist (t.children.flatMap nodes) :=
        List.sublist_flatten_of_mem (List.mem_map_of_mem child)
      exact (ih c child inner).trans (below.trans (List.sublist_cons_self ..))

theorem ids_sublist {p t : Tree} (member : p ∈ t.nodes) : p.ids.Sublist t.ids :=
  (nodes_sublist member).map id

/-- Every node of a tree but the top one is held in a slot. -/
theorem exists_holder {i : NodeId} {t : Tree} (member : i ∈ t.ids) (other : i ≠ t.id) :
    ∃ p ∈ t.nodes, ∃ c ∈ p.children, c.id = i := by
  induction t using ofChildren with
  | step t ih =>
    rcases mem_ids_iff.mp member with rfl | ⟨c, child, inside⟩
    · exact absurd rfl other
    · by_cases same : i = c.id
      · exact ⟨t, t.self_mem_nodes, c, child, same.symm⟩
      · obtain ⟨p, below, d, hd, eq⟩ := ih c child inside same
        exact ⟨p, nodes_trans below (child_mem_nodes child t.self_mem_nodes), d, hd, eq⟩

theorem map_id_sublist (ts : List Tree) : (ts.map id).Sublist (ts.flatMap ids) := by
  induction ts with
  | nil => exact List.Sublist.slnil
  | cons c rest ih =>
    rw [List.map_cons, List.flatMap_cons, ids_eq, List.cons_append]
    exact (ih.trans (List.sublist_append_right ..)).cons_cons _

theorem nodup_children {p t : Tree} (nodup : t.ids.Nodup) (member : p ∈ t.nodes) :
    (p.children.map id).Nodup := by
  have own := (ids_sublist member).nodup nodup
  rw [ids_eq, List.nodup_cons] at own
  exact (map_id_sublist p.children).nodup own.2

end Tree
end ScriptSyntax
