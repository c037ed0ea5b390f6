import Mathlib.Data.List.Nodup
import ScriptSyntax.Proofs.Forest.Holding

/-! What the rewiring of a slot does to the children of every node, and to its parent. -/
namespace ScriptSyntax

namespace Shape

variable {α : Type} {s : Shape α} {c : α}

theorem mem_children_of_left? (left : s.left? = some c) : c ∈ s.children := by
  cases s <;> simp_all [left?, children]

theorem mem_children_of_right? (right : s.right? = some c) : c ∈ s.children := by
  cases s <;> simp_all [right?, children]

end Shape

namespace Arena

variable {a : Arena} {i p new old : NodeId} {parent : Option NodeId} {s : Shape NodeId}

theorem map_if_self (is : List NodeId) : (is.map fun c => if c = i then i else c) = is := by
  have kept : ∀ c ∈ is, (if c = i then i else c) = c := fun c _ => ite_eq_right_iff.mpr Eq.symm
  rw [List.map_congr_left kept, List.map_id']

@[simp] theorem size_setParent : (a.setParent i parent).size = a.size := size_update ..

@[simp] theorem shape?_setParent : (a.setParent new parent).shape? i = a.shape? i := by
  rw [shape?, setParent, node?_update]
  split <;> simp [shape?, Function.comp_def]

@[simp] theorem children_setParent : (a.setParent new parent).children i = a.children i := by
  rw [children, shape?_setParent, children]

theorem parent?_setParent (bound : new < a.size) :
    (a.setParent new parent).parent? i = if i = new then parent else a.parent? i := by
  rw [parent?, setParent, node?_update]
  by_cases same : new = i
  · subst same
    simp [node?, Array.getElem?_eq_getElem bound]
  · simp [parent?, same, Ne.symm same]

@[simp] theorem size_setShape : (a.setShape i s).size = a.size := size_update ..

@[simp] theorem parent?_setShape : (a.setShape p s).parent? i = a.parent? i := by
  rw [parent?, setShape, node?_update]
  split <;> cases h : a.node? i <;> simp [parent?, h]

theorem children_setShape (bound : p < a.size) :
    (a.setShape p s).children i = if i = p then s.children else a.children i := by
  rw [children, shape?, setShape, node?_update]
  by_cases same : p = i
  · subst same
    simp [node?, Array.getElem?_eq_getElem bound]
  · simp [children, shape?, same, Ne.symm same]

theorem lt_size_of_shape? (stored : a.shape? p = some s) : p < a.size := by
  by_cases bound : p < a.size
  · exact bound
  · simp [shape?, node?_eq_none bound] at stored

theorem children_of_shape? (stored : a.shape? p = some s) : a.children p = s.children := by
  rw [children, stored]
  rfl

@[simp] theorem size_replaceChild : (a.replaceChild p old new).2.size = a.size := by
  simp only [replaceChild_eq]
  split
  · rfl
  · split <;> simp

/-- The slots that held `old` hold `new`, and all others what they held. -/
theorem children_replaceChild : (a.replaceChild p old new).2.children i =
    if i = p then (a.children p).map fun c => if c = old then new else c else a.children i := by
  simp only [replaceChild_eq]
  split
  · next absent =>
    split
    · next same => simp [same, children, absent]
    · rfl
  · next s stored =>
    rw [children_of_shape? stored]
    split
    · next member =>
      rw [children_setParent, children_setShape (lt_size_of_shape? stored), Shape.replace,
        Shape.children_map]
    · next outside =>
      split
      · next same =>
        have kept : ∀ c ∈ s.children, (if c = old then new else c) = c := by
          rintro c child
          exact if_neg fun eq : c = old => outside (eq ▸ child)
        rw [same, children_of_shape? stored, List.map_congr_left kept, List.map_id']
      · rfl

theorem parent?_replaceChild (bound : new < a.size) : (a.replaceChild p old new).2.parent? i =
    if i = new ∧ old ∈ a.children p then some p else a.parent? i := by
  simp only [replaceChild_eq]
  split
  · next absent => simp [children, absent]
  · next s stored =>
    rw [children_of_shape? stored]
    split
    · next member => simp [parent?_setParent, bound, member]
    · next outside => simp [outside]

/-- What becomes of an arena when a slot of `p` takes in the node `new`. -/
structure Takes (a b : Arena) (p new : NodeId) : Prop where
  others : ∀ i, i ≠ p → b.children i = a.children i
  slots : ∀ c ∈ b.children p, c = new ∨ c ∈ a.children p
  once : new ∉ a.children p → (a.children p).Nodup → (b.children p).Nodup
  parents : ∀ i, b.parent? i = if i = new then some p else a.parent? i

theorem takes_setShape (stored : a.shape? p = some s) (bound : new < a.size) {s' : Shape NodeId}
    (slots : ∀ c ∈ s'.children, c = new ∨ c ∈ s.children)
    (once : new ∉ s.children → s.children.Nodup → s'.children.Nodup) :
    a.Takes ((a.setShape p s').setParent new (some p)) p new := by
  have inside := lt_size_of_shape? stored
  constructor
  case others =>
    intro i apart
    rw [children_setParent, children_setShape inside, if_neg apart]
  case slots => simpa [children_setShape inside, children_of_shape? stored] using slots
  case once => simpa [children_setShape inside, children_of_shape? stored] using once
  case parents =>
    intro i
    rw [parent?_setParent (by simpa using bound), parent?_setShape]

/-- An operator takes in the node as its left operand. What is no operator stays as it is. -/
theorem takes_setLeft (bound : new < a.size) :
    a.setLeft p new = a ∨ a.Takes (a.setLeft p new) p new := by
  simp only [setLeft]
  split
  · exact .inl rfl
  · next s stored =>
    split
    · next operator =>
      refine .inr (takes_setShape stored bound ?_ ?_)
      all_goals cases s <;> simp_all [Shape.left?, Shape.withLeft, Shape.children]
    · exact .inl rfl

theorem takes_setRight (bound : new < a.size) :
    a.setRight p new = a ∨ a.Takes (a.setRight p new) p new := by
  simp only [setRight]
  split
  · exact .inl rfl
  · next s stored =>
    split
    · next operator =>
      refine .inr (takes_setShape stored bound ?_ ?_)
      all_goals cases s <;> simp_all [Shape.right?, Shape.withRight, Shape.children]
      all_goals grind
    · exact .inl rfl

theorem takes_replaceChild (bound : new < a.size) :
    (a.replaceChild p old new).2 = a ∨ a.Takes (a.replaceChild p old new).2 p new := by
  simp only [replaceChild_eq]
  split
  · exact .inl rfl
  · next s stored =>
    split
    · next member =>
      refine .inr (takes_setShape stored bound ?_ ?_)
      · rw [Shape.replace, Shape.children_map]
        intro c child
        obtain ⟨d, inside, rfl⟩ := List.mem_map.mp child
        split
        · exact .inl rfl
        · exact .inr inside
      · rw [Shape.replace, Shape.children_map]
        intro outside nodup
        refine List.Nodup.map_on (fun c hc d hd same => ?_) nodup
        split at same <;> split at same <;> simp_all
    · exact .inl rfl

end Arena
end ScriptSyntax
