import Mathlib.Data.List.Nodup
import ScriptSyntax.Proofs.Forest.Holding
import ScriptSyntax.Proofs.Grouping.Spine

/-! Giving an operator of an arena another operand, told by the trees that are held before and
after. -/
namespace ScriptSyntax

namespace Link

/-- The shape of the operator over operands of the given ids. -/
def idShape (l : Link) (left right : NodeId) : Shape NodeId :=
  match l.center with
  | none => .binaryOp left right
  | some center => .ternaryOp left center.id right

theorem map_shape (l : Link) (left right : Tree) :
    (l.shape left right).map Tree.id = l.idShape left.id right.id := by
  cases h : l.center <;> simp [shape, idShape, h, Shape.map]

variable (l : Link) (left right other : NodeId)

@[simp] theorem left?_idShape : (l.idShape left right).left? = some left := by
  cases h : l.center <;> simp [idShape, h, Shape.left?]

@[simp] theorem right?_idShape : (l.idShape left right).right? = some right := by
  cases h : l.center <;> simp [idShape, h, Shape.right?]

@[simp] theorem withLeft_idShape :
    (l.idShape left right).withLeft other = l.idShape other right := by
  cases h : l.center <;> simp [idShape, h, Shape.withLeft]

@[simp] theorem withRight_idShape :
    (l.idShape left right).withRight other = l.idShape left other := by
  cases h : l.center <;> simp [idShape, h, Shape.withRight]

/-- No node occurs twice in an operator over two operands. -/
structure Distinct (l : Link) (left right : Tree) : Prop where
  nodupLeft : left.ids.Nodup
  nodupRight : right.ids.Nodup
  ownLeft : l.id ∉ left.ids
  ownCenter : l.id ∉ l.center.toList.flatMap Tree.ids
  ownRight : l.id ∉ right.ids
  leftCenter : left.ids.Disjoint (l.center.toList.flatMap Tree.ids)
  leftRight : left.ids.Disjoint right.ids
  centerRight : (l.center.toList.flatMap Tree.ids).Disjoint right.ids

theorem distinct_of_nodup {l : Link} {left right : Tree} (nodup : (l.join left right).ids.Nodup) :
    l.Distinct left right := by
  rw [Tree.ids_join, List.nodup_cons, List.nodup_append', List.nodup_append',
    List.disjoint_append_right, List.mem_append, List.mem_append, not_or, not_or] at nodup
  obtain ⟨⟨ownLeft, ownCenter, ownRight⟩, nodupLeft, ⟨-, nodupRight, centerRight⟩, leftCenter,
    leftRight⟩ := nodup
  exact ⟨nodupLeft, nodupRight, ownLeft, ownCenter, ownRight, leftCenter, leftRight, centerRight⟩

namespace Distinct

variable {l : Link} {left right : Tree}

theorem left_ne (distinct : l.Distinct left right) : left.id ≠ l.id := by
  intro same
  exact distinct.ownLeft (same ▸ left.id_mem_ids)

theorem right_ne (distinct : l.Distinct left right) : right.id ≠ l.id := by
  intro same
  exact distinct.ownRight (same ▸ right.id_mem_ids)

theorem left_ne_right (distinct : l.Distinct left right) : left.id ≠ right.id := by
  intro same
  exact distinct.leftRight left.id_mem_ids (same ▸ right.id_mem_ids)

end Distinct
end Link

namespace Arena

variable {a b : Arena} {l : Link} {t left right : Tree} {i x y p : NodeId}

/-- The arena holds the tree under the node `p`. -/
structure Hangs (a : Arena) (t : Tree) (p : NodeId) : Prop where
  held : a.Holds t
  under : a.parent? t.id = some p

/-- The arena holds all of an operator but its outer operands, whose ids are given. -/
structure Stores (a : Arena) (l : Link) (left right : NodeId) : Prop where
  stored : ∃ parent, a.node? l.id = some ⟨l.idShape left right, some l.token, parent, l.frozen⟩
  center : ∀ c ∈ l.center, a.Hangs c l.id

theorem holds_join : a.Holds (l.join left right) ↔
    a.Stores l left.id right.id ∧ a.Hangs left l.id ∧ a.Hangs right l.id := by
  rw [holds_iff]
  constructor
  · rintro ⟨⟨stored, adopted⟩, below⟩
    rw [Link.children_join] at adopted below
    have hang (c : Tree) (child : c ∈ left :: (l.center.toList ++ [right])) : a.Hangs c l.id :=
      ⟨below c child, adopted c child⟩
    refine ⟨⟨?_, fun c hc => hang c (by simp_all)⟩, hang left (by simp), hang right (by simp)⟩
    rw [← Link.map_shape]
    exact stored
  · rintro ⟨⟨stored, center⟩, first, last⟩
    rw [← Link.map_shape] at stored
    have hang : ∀ c ∈ (l.join left right).children, a.Hangs c l.id := by
      intro c child
      rw [Link.children_join, List.mem_cons, List.mem_append, List.mem_singleton] at child
      rcases child with rfl | h | rfl
      · exact first
      · exact center c (Option.mem_toList.mp h)
      · exact last
    exact ⟨⟨stored, fun c child => (hang c child).under⟩, fun c child => (hang c child).held⟩

theorem Hangs.congr (hangs : a.Hangs t p) (same : ∀ i ∈ t.ids, b.node? i = a.node? i) :
    b.Hangs t p := by
  refine ⟨hangs.held.congr_all same, ?_⟩
  rw [Arena.parent?, same t.id t.id_mem_ids]
  exact hangs.under

theorem node?_setLeft (stored : a.shape? l.id = some (l.idShape x y)) {child : NodeId} :
    (a.setLeft l.id child).node? i =
      if child = i then ((a.setShape l.id (l.idShape child y)).node? i).map
        fun n => { n with parent := some l.id }
      else (a.setShape l.id (l.idShape child y)).node? i := by
  simp only [setLeft, stored, Link.left?_idShape, Option.isSome_some, if_true,
    Link.withLeft_idShape, setParent, node?_update]

theorem node?_setRight (stored : a.shape? l.id = some (l.idShape x y)) {child : NodeId} :
    (a.setRight l.id child).node? i =
      if child = i then ((a.setShape l.id (l.idShape x child)).node? i).map
        fun n => { n with parent := some l.id }
      else (a.setShape l.id (l.idShape x child)).node? i := by
  simp only [setRight, stored, Link.right?_idShape, Option.isSome_some, if_true,
    Link.withRight_idShape, setParent, node?_update]

theorem Stores.shape? (stores : a.Stores l x y) : a.shape? l.id = some (l.idShape x y) := by
  obtain ⟨parent, stored⟩ := stores.stored
  simp [Arena.shape?, stored]

theorem Hangs.adopted (hangs : a.Hangs t p) :
    (a.node? t.id).map (fun n => { n with parent := some p }) = a.node? t.id := by
  obtain ⟨parent, stored⟩ := (hangs.held t t.self_mem_nodes).stored
  have under := hangs.under
  simp only [Arena.parent?, stored, Option.bind_some] at under
  simp [stored, under]

/-- An operator that is given the operands `left` and `right`, both adopted, holds them. -/
theorem Stores.join (stores : a.Stores l x y) (nodup : (l.join left right).ids.Nodup)
    (first : a.Holds left) (last : a.Holds right)
    (own : b.node? l.id = (a.node? l.id).map
      fun n => { n with shape := l.idShape left.id right.id })
    (adoptedLeft : b.node? left.id = (a.node? left.id).map
      fun n => { n with parent := some l.id })
    (adoptedRight : b.node? right.id = (a.node? right.id).map
      fun n => { n with parent := some l.id })
    (others : ∀ i, i ≠ l.id → i ≠ left.id → i ≠ right.id → b.node? i = a.node? i) :
    b.Holds (l.join left right) := by
  have distinct := Link.distinct_of_nodup nodup
  have hangs (t : Tree) (held : a.Holds t) (nodup : t.ids.Nodup)
      (adopted : b.node? t.id = (a.node? t.id).map fun n => { n with parent := some l.id })
      (below : ∀ i ∈ t.ids, i ≠ t.id → b.node? i = a.node? i) : b.Hangs t l.id := by
    refine ⟨held.congr nodup below ⟨_, adopted⟩, ?_⟩
    obtain ⟨parent, stored⟩ := (held t t.self_mem_nodes).stored
    simp [Arena.parent?, adopted, stored]
  refine holds_join.mpr ⟨⟨?_, ?_⟩, hangs left first distinct.nodupLeft adoptedLeft ?_,
    hangs right last distinct.nodupRight adoptedRight ?_⟩
  · obtain ⟨parent, stored⟩ := stores.stored
    exact ⟨parent, by rw [own, stored]; rfl⟩
  · intro c hc
    have inside (i : NodeId) (hi : i ∈ c.ids) : i ∈ l.center.toList.flatMap Tree.ids :=
      List.mem_flatMap.mpr ⟨c, Option.mem_toList.mpr hc, hi⟩
    apply (stores.center c hc).congr
    intro i hi
    apply others i
    · rintro rfl
      exact distinct.ownCenter (inside _ hi)
    · rintro rfl
      exact distinct.leftCenter left.id_mem_ids (inside _ hi)
    · rintro rfl
      exact distinct.centerRight (inside _ hi) right.id_mem_ids
  · intro i hi top
    apply others i
    · rintro rfl
      exact distinct.ownLeft hi
    · exact top
    · rintro rfl
      exact distinct.leftRight hi right.id_mem_ids
  · intro i hi top
    apply others i
    · rintro rfl
      exact distinct.ownRight hi
    · rintro rfl
      exact distinct.leftRight left.id_mem_ids hi
    · exact top

theorem node?_setLeft_of_ne (stores : a.Stores l x y) {child : NodeId} (own : i ≠ l.id)
    (apart : i ≠ child) : (a.setLeft l.id child).node? i = a.node? i := by
  rw [node?_setLeft stores.shape?, if_neg apart.symm, setShape, node?_update, if_neg own.symm]

theorem node?_setRight_of_ne (stores : a.Stores l x y) {child : NodeId} (own : i ≠ l.id)
    (apart : i ≠ child) : (a.setRight l.id child).node? i = a.node? i := by
  rw [node?_setRight stores.shape?, if_neg apart.symm, setShape, node?_update, if_neg own.symm]

theorem Stores.setLeft (stores : a.Stores l x right.id) (hangs : a.Hangs right l.id)
    (held : a.Holds left) (nodup : (l.join left right).ids.Nodup) :
    (a.setLeft l.id left.id).Holds (l.join left right) := by
  have distinct := Link.distinct_of_nodup nodup
  apply stores.join nodup held hangs.held
  · rw [node?_setLeft stores.shape?, if_neg distinct.left_ne, setShape, node?_update, if_pos rfl]
  · rw [node?_setLeft stores.shape?, if_pos rfl, setShape, node?_update,
      if_neg distinct.left_ne.symm]
  · rw [node?_setLeft_of_ne stores distinct.right_ne distinct.left_ne_right.symm, hangs.adopted]
  · intro i own first _
    exact node?_setLeft_of_ne stores own first

theorem Stores.setRight (stores : a.Stores l left.id y) (hangs : a.Hangs left l.id)
    (held : a.Holds right) (nodup : (l.join left right).ids.Nodup) :
    (a.setRight l.id right.id).Holds (l.join left right) := by
  have distinct := Link.distinct_of_nodup nodup
  apply stores.join nodup hangs.held held
  · rw [node?_setRight stores.shape?, if_neg distinct.right_ne, setShape, node?_update, if_pos rfl]
  · rw [node?_setRight_of_ne stores distinct.left_ne distinct.left_ne_right, hangs.adopted]
  · rw [node?_setRight stores.shape?, if_pos rfl, setShape, node?_update,
      if_neg distinct.right_ne.symm]
  · intro i own _ last
    exact node?_setRight_of_ne stores own last

/-- Another tree in the place of one that closes a spine. Nothing else of the spine may have
changed. -/
theorem Holds.close_congr {spine : List (Link × Tree)} {s t : Tree}
    (held : a.Holds (Tree.close spine s)) (nodup : (Tree.close spine s).ids.Nodup)
    (same : t.id = s.id) (inner : b.Holds t) (under : b.parent? s.id = a.parent? s.id)
    (outside : ∀ i ∈ (Tree.close spine s).ids, i ∉ s.ids → b.node? i = a.node? i) :
    b.Holds (Tree.close spine t) := by
  induction spine generalizing s t with
  | nil => exact inner
  | cons f rest ih =>
    obtain ⟨l, left⟩ := f
    simp only [Tree.close] at held nodup outside ⊢
    have within := Tree.ids_sublist (Tree.mem_nodes_close rest (l.join left s))
    obtain ⟨stores, first, last⟩ :=
      holds_join.mp (held.of_mem (Tree.mem_nodes_close rest (l.join left s)))
    have distinct := Link.distinct_of_nodup (within.nodup nodup)
    have unchanged (i : NodeId) (hi : i ∈ (l.join left s).ids) (apart : i ∉ s.ids) :
        b.node? i = a.node? i := outside i (within.subset hi) apart
    have top : b.node? l.id = a.node? l.id :=
      unchanged l.id (l.join left s).id_mem_ids distinct.ownRight
    have joined : b.Holds (l.join left t) := by
      refine holds_join.mpr ⟨⟨?_, ?_⟩, ?_, inner, ?_⟩
      · rw [top, same]
        exact stores.stored
      · intro c hc
        apply (stores.center c hc).congr
        intro i hi
        have inside : i ∈ l.center.toList.flatMap Tree.ids :=
          List.mem_flatMap.mpr ⟨c, Option.mem_toList.mpr hc, hi⟩
        apply unchanged i
        · rw [Tree.ids_join]
          simp [inside]
        · exact distinct.centerRight inside
      · apply first.congr
        intro i hi
        apply unchanged i
        · rw [Tree.ids_join]
          simp [hi]
        · exact distinct.leftRight hi
      · rw [same, under]
        exact last.under
    refine ih held nodup rfl joined ?_ ?_
    · simp only [Arena.parent?, Link.id_join, top]
    · intro i hi apart
      apply outside i hi
      intro hs
      apply apart
      rw [Tree.ids_join]
      simp [hs]

end Arena
end ScriptSyntax
