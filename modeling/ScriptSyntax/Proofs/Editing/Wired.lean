import ScriptSyntax.Proofs.Grouping.Linked

/-! What keeps an arena wired: a slot may take in a node that hangs nowhere if the node with the
slot is not below it, and a chain may be regrouped if the node that its top names as its parent is
not below it either. -/
namespace ScriptSyntax.Arena

open Relation (TransGen ReflTransGen)

variable {a b : Arena} {t : Tree} {c d i p new : NodeId}

/-- The node is there and hangs nowhere. -/
def IsLoose (a : Arena) (i : NodeId) : Prop := i < a.size ∧ ∀ p, ¬ a.IsChild i p

instance : Decidable (a.IsLoose i) :=
  decidable_of_iff (i < a.size ∧ ∀ p < a.size, i ∉ a.children p)
    (and_congr_right fun _ => ⟨fun free p child => free p (lt_size_of_child child) child,
      fun free p _ => free p⟩)

/-- A path down from a node stays among nodes that hold only each other. -/
theorem not_reaches_of_closed {id p : NodeId} (below : List NodeId) (top : id ∈ below)
    (closed : ∀ q ∈ below, ∀ c ∈ a.children q, c ∈ below) (outside : p ∉ below) :
    ¬ ReflTransGen a.IsChild p id := by
  refine mt (fun path => ?_) outside
  clear outside
  induction path using ReflTransGen.head_induction_on with
  | refl => exact top
  | head step _ ih => exact closed _ ih _ step

theorem Wired.lt_size (wired : a.Wired) (child : a.IsChild c p) : c < a.size :=
  lt_size_of_parent? (wired.under c p child)

/-- Only parents of loose nodes may change. -/
theorem Wired.congr (wired : a.Wired) (children : ∀ i, b.children i = a.children i)
    (parents : ∀ c p, a.IsChild c p → b.parent? c = a.parent? c) : b.Wired := by
  have same : b.IsChild = a.IsChild := by
    funext c p
    rw [IsChild, children, IsChild]
  constructor
  case under =>
    intro c p child
    rw [children] at child
    rw [parents c p child]
    exact wired.under c p child
  case once =>
    intro p
    rw [children]
    exact wired.once p
  case acyclic =>
    rw [same]
    exact wired.acyclic

theorem wired_empty : empty.Wired := by
  have none (c p : NodeId) : ¬ empty.IsChild c p := fun child => by
    simp [IsChild, Arena.children, shape?, node?, empty] at child
  refine ⟨fun c p child => absurd child (none c p), fun p => ?_, fun c cycle => ?_⟩
  · simp [Arena.children, shape?, node?, empty]
  · obtain ⟨p, step, -⟩ := TransGen.head'_iff.mp cycle
    exact none c p step

/-- A path up that is new goes above the new edge. -/
theorem Takes.path (takes : a.Takes b p new) (apart : ¬ ReflTransGen a.IsChild p new)
    (path : TransGen b.IsChild c d) :
    TransGen a.IsChild c d ∨ ReflTransGen a.IsChild c new ∧ ReflTransGen a.IsChild p d := by
  have edge {x y : NodeId} (child : b.IsChild x y) : a.IsChild x y ∨ x = new ∧ y = p := by
    by_cases slot : y = p
    · subst slot
      exact (takes.slots x child).symm.imp_right fun same => ⟨same, rfl⟩
    · rw [IsChild, takes.others y slot] at child
      exact .inl child
  induction path with
  | single step =>
    rcases edge step with old | ⟨rfl, rfl⟩
    · exact .inl (.single old)
    · exact .inr ⟨.refl, .refl⟩
  | tail _ step ih =>
    rcases edge step with old | ⟨rfl, rfl⟩
    · exact ih.imp (·.tail old) (And.imp_right (·.tail old))
    · rcases ih with before | ⟨-, around⟩
      · exact .inr ⟨before.to_reflTransGen, .refl⟩
      · exact absurd around apart

theorem Wired.take (wired : a.Wired) (takes : a.Takes b p new) (loose : a.IsLoose new)
    (apart : ¬ ReflTransGen a.IsChild p new) : b.Wired := by
  constructor
  case under =>
    intro c q child
    rw [takes.parents]
    have old (child : a.IsChild c q) : (if c = new then some p else a.parent? c) = some q := by
      rw [if_neg fun same : c = new => loose.2 q (same ▸ child)]
      exact wired.under c q child
    by_cases slot : q = p
    · subst slot
      rcases takes.slots c child with rfl | before
      · exact if_pos rfl
      · exact old before
    · rw [takes.others q slot] at child
      exact old child
  case once =>
    intro q
    by_cases slot : q = p
    · subst slot
      exact takes.once (loose.2 q) (wired.once q)
    · rw [takes.others q slot]
      exact wired.once q
  case acyclic =>
    intro c cycle
    rcases takes.path apart cycle with old | ⟨down, up⟩
    · exact wired.acyclic c old
    · exact apart (up.trans down)

theorem parent?_add {shape : Shape NodeId} {token : Option Token} (old : c < a.size) :
    (a.add shape token).2.parent? c =
      if c ∈ shape.children then some a.size else a.parent? c := by
  rw [parent?, node?_add, if_neg (Nat.ne_of_lt old)]
  split <;> simp [parent?, node?, Array.getElem?_eq_getElem old]

theorem children_add {shape : Shape NodeId} {token : Option Token} :
    (a.add shape token).2.children i = if i = a.size then shape.children else a.children i := by
  rw [Arena.children, shape?, node?_add]
  split
  · rfl
  · split <;> cases h : a.node? i <;> simp [Arena.children, shape?, h]

theorem Wired.add {shape : Shape NodeId} {token : Option Token} (wired : a.Wired)
    (nodup : shape.children.Nodup) (loose : ∀ c ∈ shape.children, a.IsLoose c) :
    (a.add shape token).2.Wired := by
  have edge {x y : NodeId} (child : (a.add shape token).2.IsChild x y) :
      x < a.size ∧ (y = a.size ∧ x ∈ shape.children ∨ a.IsChild x y) := by
    rw [IsChild, children_add] at child
    split at child
    · next top => exact ⟨(loose x child).1, .inl ⟨top, child⟩⟩
    · exact ⟨wired.lt_size child, .inr child⟩
  constructor
  case under =>
    intro c p child
    obtain ⟨bound, ⟨rfl, member⟩ | old⟩ := edge child
    · rw [parent?_add bound, if_pos member]
    · rw [parent?_add bound, if_neg fun member => (loose c member).2 p old]
      exact wired.under c p old
  case once =>
    intro p
    rw [children_add]
    split
    · exact nodup
    · exact wired.once p
  case acyclic =>
    have path {x y : NodeId} (up : TransGen (a.add shape token).2.IsChild x y) :
        y = a.size ∨ TransGen a.IsChild x y := by
      induction up with
      | single step => exact (edge step).2.imp And.left .single
      | tail _ step ih =>
        obtain ⟨bound, ⟨top, -⟩ | old⟩ := edge step
        · exact .inl top
        · exact .inr ((ih.resolve_left (Nat.ne_of_lt bound)).tail old)
    intro c cycle
    rcases path cycle with top | old
    · obtain ⟨p, step, -⟩ := TransGen.head'_iff.mp cycle
      exact Nat.lt_irrefl _ (top ▸ (edge step).1)
    · exact wired.acyclic c old

theorem Holds.mem_of_isChild (held : a.Holds t) (inside : p ∈ t.ids) (child : a.IsChild c p) :
    c ∈ t.ids := by
  obtain ⟨q, node, rfl⟩ := List.mem_map.mp inside
  rw [IsChild, (held q node).children] at child
  obtain ⟨d, member, rfl⟩ := List.mem_map.mp child
  exact List.mem_map_of_mem (Tree.child_mem_nodes member node)

theorem Holds.mem_of_reaches (held : a.Holds t) (inside : p ∈ t.ids)
    (path : ReflTransGen a.IsChild c p) : c ∈ t.ids := by
  induction path using ReflTransGen.head_induction_on with
  | refl => exact inside
  | head step _ ih => exact held.mem_of_isChild ih step

theorem Holds.mem_ids_iff (held : a.Holds t) : i ∈ t.ids ↔ ReflTransGen a.IsChild i t.id :=
  ⟨held.reaches, held.mem_of_reaches t.id_mem_ids⟩

/-- In a tree that repeats no node, no path comes back to where it began. -/
theorem Holds.acyclic (held : a.Holds t) (nodup : t.ids.Nodup) (inside : i ∈ t.ids) :
    ¬ TransGen a.IsChild i i := by
  induction t using Tree.ofChildren with
  | step t ih =>
    intro cycle
    rcases Tree.mem_ids_iff.mp inside with rfl | ⟨c, child, below⟩
    · obtain ⟨d, path, step⟩ := TransGen.tail'_iff.mp cycle
      rw [IsChild, (held t t.self_mem_nodes).children] at step
      obtain ⟨c, child, rfl⟩ := List.mem_map.mp step
      have again := ((holds_iff.mp held).2 c child).mem_of_reaches c.id_mem_ids path
      rw [Tree.ids_eq, List.nodup_cons] at nodup
      exact nodup.1 (List.mem_flatMap.mpr ⟨c, child, again⟩)
    · exact ih c child ((holds_iff.mp held).2 c child)
        (nodup.sublist (Tree.ids_sublist (Tree.child_mem_nodes child t.self_mem_nodes))) below cycle

/-- A node that is held inside a tree hangs inside it. -/
theorem Wired.mem_of_isChild (wired : a.Wired) (held : a.Holds t) (inside : c ∈ t.ids)
    (child : a.IsChild c p) : c = t.id ∨ p ∈ t.ids := by
  rcases (held.reaches inside).cases_head with top | ⟨q, up, rest⟩
  · exact .inl top
  · rw [wired.rightUnique child up]
    exact .inr (held.mem_of_reaches t.id_mem_ids rest)

theorem Holds.nodup_children (held : a.Holds t) (nodup : t.ids.Nodup) (inside : p ∈ t.ids) :
    (a.children p).Nodup := by
  obtain ⟨q, node, rfl⟩ := List.mem_map.mp inside
  rw [(held q node).children]
  exact Tree.nodup_children nodup node

/-- Regrouping below `t` keeps what it does not touch as it was. -/
theorem Regroups.wired {top : NodeId} (regroups : a.Regroups b t top) (wired : a.Wired)
    (held : a.Holds t) : b.Wired := by
  have ids {i : NodeId} : i ∈ t.grouped.ids ↔ i ∈ t.ids := (Tree.ids_grouped t).mem_iff
  have nodup : t.grouped.ids.Nodup := (Tree.ids_grouped t).nodup_iff.mpr (wired.nodup held)
  -- Outside of the tree only the slot in which it hangs holds anything else than before.
  have edge {c p : NodeId} (outer : p ∉ t.ids) (child : b.IsChild c p) :
      c = t.grouped.id ∧ a.IsChild t.id p ∨ c ≠ t.id ∧ a.IsChild c p := by
    by_cases above : a.parent? t.id = some p
    · rw [IsChild, (regroups.holder p above).2.1] at child
      obtain ⟨d, member, rfl⟩ := List.mem_map.mp child
      split
      · next same => exact .inl ⟨rfl, same ▸ member⟩
      · next other => exact .inr ⟨other, member⟩
    · rw [IsChild, Arena.children, shape?, regroups.outside p outer above] at child
      refine .inr ⟨fun same => above ?_, child⟩
      exact wired.under t.id p (same ▸ child)
  have outer {c p : NodeId} (above : p ∉ t.ids) (other : c ≠ t.id) (child : a.IsChild c p) :
      c ∉ t.ids := fun inside =>
    (wired.mem_of_isChild held inside child).elim other above
  constructor
  case under =>
    intro c p child
    by_cases inside : p ∈ t.ids
    · obtain ⟨q, node, rfl⟩ := List.mem_map.mp (ids.mpr inside)
      have shown := regroups.held q node
      rw [shown.children] at child
      obtain ⟨d, member, rfl⟩ := List.mem_map.mp child
      exact shown.adopted d member
    · rcases edge inside child with ⟨rfl, old⟩ | ⟨other, old⟩
      · exact (regroups.holder p (wired.under _ _ old)).2.2 old
      · have before := wired.under c p old
        by_cases above : a.parent? t.id = some c
        · exact (regroups.holder c above).1.trans before
        · rwa [parent?, regroups.outside c (outer inside other old) above]
  case once =>
    intro p
    by_cases inside : p ∈ t.ids
    · exact regroups.held.nodup_children nodup (ids.mpr inside)
    by_cases above : a.parent? t.id = some p
    · have top (c : NodeId) (child : c ∈ a.children p) (same : c = t.grouped.id) : c = t.id :=
        have top : t.grouped.id ∈ t.ids := ids.mp t.grouped.id_mem_ids
        (wired.mem_of_isChild held (same ▸ top) child).resolve_right inside
      rw [(regroups.holder p above).2.1]
      refine List.Nodup.map_on (fun c hc d hd same => ?_) (wired.once p)
      split at same <;> split at same
      · next first second => exact first.trans second.symm
      · next first _ => exact first.trans (top d hd same.symm).symm
      · next _ second => exact (top c hc same).trans second.symm
      · exact same
    · rw [Arena.children, shape?, regroups.outside p inside above]
      exact wired.once p
  case acyclic =>
    have path {c p : NodeId} (above : c ∉ t.ids) (up : TransGen b.IsChild c p) :
        TransGen a.IsChild c p := by
      have step {x y : NodeId} (outside : x ∉ t.ids) (child : b.IsChild x y) :
          y ∉ t.ids ∧ a.IsChild x y := by
        have higher : y ∉ t.ids := fun inside =>
          outside (ids.mp (regroups.held.mem_of_isChild (ids.mpr inside) child))
        rcases edge higher child with ⟨rfl, -⟩ | ⟨-, old⟩
        · exact absurd (ids.mp t.grouped.id_mem_ids) outside
        · exact ⟨higher, old⟩
      induction up using TransGen.head_induction_on with
      | single child => exact .single (step above child).2
      | head child _ ih => exact .head (step above child).2 (ih (step above child).1)
    intro c cycle
    by_cases inside : c ∈ t.ids
    · exact regroups.held.acyclic nodup (ids.mpr inside) cycle
    · exact wired.acyclic c (path inside cycle)

end ScriptSyntax.Arena
