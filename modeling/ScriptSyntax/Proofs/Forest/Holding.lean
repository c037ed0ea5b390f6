import ScriptSyntax.Proofs.Forest.Tree

/-! What it means that an arena holds a tree: every node of the tree is stored under its id and is
the parent of its children. Where the tree itself hangs is left open, so that a tree that moves as
a whole is held before and after. -/
namespace ScriptSyntax.Arena

variable {a b : Arena} {t p c : Tree} {i j : NodeId}

theorem node?_eq_none (outside : ¬ i < a.size) : a.node? i = none :=
  Array.getElem?_eq_none (Nat.le_of_not_lt outside)

theorem lt_size_of_child (child : i ∈ a.children j) : j < a.size := by
  by_cases bound : j < a.size
  · exact bound
  · simp [Arena.children, Arena.shape?, node?_eq_none bound] at child

theorem lt_size_of_parent? (under : a.parent? i = some j) : i < a.size := by
  by_cases bound : i < a.size
  · exact bound
  · simp [Arena.parent?, node?_eq_none bound] at under

/-- The node on top of `p` is stored in `a`, and its children name it as their parent. -/
structure Shows (a : Arena) (p : Tree) : Prop where
  stored : ∃ parent, a.node? p.id = some ⟨p.shape.map Tree.id, p.token, parent, p.frozen⟩
  adopted : ∀ c ∈ p.children, a.parent? c.id = some p.id

def Holds (a : Arena) (t : Tree) : Prop := ∀ p ∈ t.nodes, a.Shows p

theorem holds_iff : a.Holds t ↔ a.Shows t ∧ ∀ c ∈ t.children, a.Holds c := by
  constructor
  · intro held
    refine ⟨held t t.self_mem_nodes, fun c child p member => ?_⟩
    exact held p (Tree.nodes_trans member (Tree.child_mem_nodes child t.self_mem_nodes))
  · rintro ⟨shown, below⟩ p member
    rcases Tree.mem_nodes_iff.mp member with rfl | ⟨c, child, inner⟩
    · exact shown
    · exact below c child p inner

theorem Holds.of_mem (held : a.Holds t) (member : p ∈ t.nodes) : a.Holds p :=
  fun _ inner => held _ (Tree.nodes_trans inner member)

theorem Shows.shape? (shown : a.Shows p) : a.shape? p.id = some (p.shape.map Tree.id) := by
  obtain ⟨parent, stored⟩ := shown.stored
  simp [Arena.shape?, stored]

theorem Shows.children (shown : a.Shows p) : a.children p.id = p.children.map Tree.id := by
  simp [Arena.children, shown.shape?, Shape.children_map, Tree.children]

theorem Shows.isFrozen (shown : a.Shows p) : a.isFrozen p.id = p.frozen := by
  obtain ⟨parent, stored⟩ := shown.stored
  simp [Arena.isFrozen, stored]

theorem Shows.lt_size (shown : a.Shows p) : p.id < a.size := by
  obtain ⟨parent, stored⟩ := shown.stored
  exact (Array.getElem?_eq_some_iff.mp stored).1

theorem Holds.lt_size (held : a.Holds t) (member : i ∈ t.ids) : i < a.size := by
  obtain ⟨p, inner, rfl⟩ := List.mem_map.mp member
  exact (held p inner).lt_size

/-- A tree with unequal ids stays held while only its top node is given another parent. -/
theorem Holds.congr (held : a.Holds t) (nodup : t.ids.Nodup)
    (below : ∀ i ∈ t.ids, i ≠ t.id → b.node? i = a.node? i)
    (top : ∃ parent, b.node? t.id = (a.node? t.id).map fun n => { n with parent }) :
    b.Holds t := by
  intro p member
  have shown := held p member
  have adopted : ∀ c ∈ p.children, b.parent? c.id = some p.id := by
    intro c child
    have inner : c.id ∈ t.ids := List.mem_map_of_mem (Tree.child_mem_nodes child member)
    have apart : c.id ≠ t.id := by
      intro same
      rw [Tree.ids_eq, List.nodup_cons] at nodup
      apply nodup.1
      rw [← same]
      rcases Tree.mem_nodes_iff.mp member with rfl | ⟨d, hd, inside⟩
      · exact List.mem_flatMap.mpr ⟨c, child, c.id_mem_ids⟩
      · exact List.mem_flatMap.mpr
          ⟨d, hd, List.mem_map_of_mem (Tree.child_mem_nodes child inside)⟩
    rw [Arena.parent?, below _ inner apart]
    exact shown.adopted c child
  obtain ⟨parent, stored⟩ := shown.stored
  by_cases same : p.id = t.id
  · obtain ⟨other, moved⟩ := top
    refine ⟨⟨other, ?_⟩, adopted⟩
    rw [same] at stored ⊢
    rw [moved, stored]
    rfl
  · exact ⟨⟨parent, (below _ (List.mem_map_of_mem member) same).trans stored⟩, adopted⟩

theorem Holds.congr_all (held : a.Holds t) (same : ∀ i ∈ t.ids, b.node? i = a.node? i) :
    b.Holds t := by
  intro p member
  obtain ⟨parent, stored⟩ := (held p member).stored
  refine ⟨⟨parent, (same _ (List.mem_map_of_mem member)).trans stored⟩, fun c child => ?_⟩
  rw [Arena.parent?, same _ (List.mem_map_of_mem (Tree.child_mem_nodes child member))]
  exact (held p member).adopted c child

/-- A tree is determined by its top node. -/
theorem Holds.unique {s : Tree} (first : a.Holds s) (second : a.Holds t) (same : s.id = t.id) :
    s = t := by
  induction s using Tree.ofChildren generalizing t with
  | step s ih =>
    obtain ⟨p, stored⟩ := (first s s.self_mem_nodes).stored
    obtain ⟨q, again⟩ := (second t t.self_mem_nodes).stored
    rw [same] at stored
    obtain ⟨shapes, tokens, -, frozens⟩ := Node.mk.inj (Option.some.inj (stored.symm.trans again))
    -- The children of both have the same ids, so one function from ids to trees gives either shape.
    have below : ∀ c ∈ s.children, ∀ d ∈ t.children, c.id = d.id → c = d := fun c hc d hd =>
      ih c hc (holds_iff.mp first |>.2 c hc) (holds_iff.mp second |>.2 d hd)
    have ids : s.children.map Tree.id = t.children.map Tree.id := by
      simpa only [Shape.children_map, Tree.children] using congrArg Shape.children shapes
    let tree (i : NodeId) : Tree := (t.children.find? fun d => d.id = i).getD default
    have onFirst : ∀ c ∈ s.children, tree c.id = c := by
      intro c hc
      obtain ⟨d, hd, eq⟩ := List.mem_map.mp (ids ▸ List.mem_map_of_mem hc)
      cases found : t.children.find? fun d => d.id = c.id with
      | none => exact absurd eq (by simpa using List.find?_eq_none.mp found d hd)
      | some e =>
        have he : e.id = c.id := by simpa using List.find?_some found
        simp only [tree, found, Option.getD_some]
        exact (below c hc e (List.mem_of_find?_eq_some found) he.symm).symm
    have onSecond : ∀ d ∈ t.children, tree d.id = d := by
      intro d hd
      obtain ⟨c, hc, eq⟩ := List.mem_map.mp (ids ▸ List.mem_map_of_mem hd)
      rw [← below c hc d hd eq]
      exact onFirst c hc
    have same : s.shape = t.shape := by
      have eq := congrArg (Shape.map tree) shapes
      rw [Shape.map_map, Shape.map_map, Shape.map_congr _ onFirst, Shape.map_congr _ onSecond,
        Shape.map_self, Shape.map_self] at eq
      exact eq
    cases s
    cases t
    simp_all

end ScriptSyntax.Arena
