import ScriptSyntax.Proofs.Editing.Wired

/-! Arenas that are built edit by edit. An edit that takes a node out of a slot leaves its parent
as it was, so a node may come to name as its parent what hangs below it. Regrouping at such a node
would hang the new top into its own tree; anywhere else it rearranges what is below the node. -/
namespace ScriptSyntax

open Relation (TransGen ReflTransGen)

/-- What may be done to an arena. -/
inductive Edit where
  | add (shape : Shape NodeId) (token : Option Token)
  | setLeft (id child : NodeId)
  | setRight (id child : NodeId)
  | replaceChild (parent old new : NodeId)
  | supplant (old new : NodeId)
  | freeze (id : NodeId)
  | unfreeze (id : NodeId)
  | regroup (id : NodeId)

namespace Edit

def apply (a : Arena) : Edit → Arena
  | add shape token => (a.add shape token).2
  | setLeft id child => a.setLeft id child
  | setRight id child => a.setRight id child
  | replaceChild parent old new => (a.replaceChild parent old new).2
  | supplant old new => a.supplant old new
  | freeze id => a.freeze id
  | unfreeze id => a.unfreeze id
  | regroup id => (a.regroup id).2.1

/-- Slots take in nodes that hang nowhere, and never one that the node with the slot is below. -/
def Allowed (a : Arena) : Edit → Prop
  | add shape _ => shape.children.Nodup ∧ ∀ c ∈ shape.children, a.IsLoose c
  | setLeft id child | setRight id child => a.IsLoose child ∧ ¬ ReflTransGen a.IsChild id child
  | replaceChild parent _ new => a.IsLoose new ∧ ¬ ReflTransGen a.IsChild parent new
  | supplant old new =>
    a.IsLoose new ∧ ∀ p, a.parent? old = some p → ¬ ReflTransGen a.IsChild p new
  | freeze _ | unfreeze _ => True
  | regroup id => id < a.size

/-- Regrouping happens at no node that names as its parent what is below it. -/
def Upright (a : Arena) : Edit → Prop
  | regroup id => ∀ p, a.parent? id = some p → ¬ ReflTransGen a.IsChild p id
  | _ => True

/-- The arena after a list of edits. -/
def run (edits : List Edit) (a : Arena) : Arena := edits.foldl apply a

/-- Whether each of the edits meets a condition on it and on the arena that it finds. -/
def Each (condition : Arena → Edit → Prop) : List Edit → Arena → Prop
  | [], _ => True
  | e :: edits, a => condition a e ∧ Each condition edits (e.apply a)

end Edit

namespace Arena

variable {a : Arena} {e : Edit} {edits : List Edit} {id : NodeId}

theorem children_update_frozen (i : NodeId) (frozen : Bool) (c : NodeId) :
    (a.update i fun n => { n with frozen }).children c = a.children c := by
  rw [children, shape?, node?_update]
  split <;> cases h : a.node? c <;> simp [children, shape?, h]

theorem parent?_update_frozen (i : NodeId) (frozen : Bool) (c : NodeId) :
    (a.update i fun n => { n with frozen }).parent? c = a.parent? c := by
  rw [parent?, node?_update]
  split <;> cases h : a.node? c <;> simp [parent?, h]

/-- What regrouping at a node of a wired arena gives, if its parent is not below it. -/
theorem Wired.regroups (wired : a.Wired) (bound : id < a.size)
    (upright : (Edit.regroup id).Upright a) :
    ∃ t, a.Holds t ∧ t.id = id ∧ a.Regroups (a.regroup id).2.1 t (a.regroup id).1 := by
  obtain ⟨t, held, rfl⟩ := wired.exists_tree bound
  exact ⟨t, held, rfl, held.regroup (wired.nodup held) fun p under inside =>
    upright p under (held.reaches inside)⟩

/-- One edit. -/
theorem Wired.apply (wired : a.Wired) (allowed : e.Allowed a) (upright : e.Upright a) :
    (e.apply a).Wired := by
  have take {b : Arena} {p new : NodeId} (loose : a.IsLoose new)
      (apart : ¬ ReflTransGen a.IsChild p new) (taken : b = a ∨ a.Takes b p new) : b.Wired := by
    rcases taken with rfl | takes
    · exact wired
    · exact wired.take takes loose apart
  have loosen {new : NodeId} {parent : Option NodeId} (loose : a.IsLoose new) :
      (a.setParent new parent).Wired :=
    wired.congr (fun i => children_setParent) fun c p child => by
      rw [parent?_setParent loose.1, if_neg fun same : c = new => loose.2 p (same ▸ child)]
  cases e with
  | add shape token => exact wired.add allowed.1 allowed.2
  | setLeft id child => exact take allowed.1 allowed.2 (takes_setLeft allowed.1.1)
  | setRight id child => exact take allowed.1 allowed.2 (takes_setRight allowed.1.1)
  | replaceChild parent old new =>
    exact take allowed.1 allowed.2 (takes_replaceChild allowed.1.1)
  | supplant old new =>
    obtain ⟨loose, apart⟩ := allowed
    simp only [Edit.apply, supplant, hang]
    split
    · next p under => exact take loose (apart p under) (takes_replaceChild loose.1)
    · split
      · exact (loosen loose).congr (fun _ => rfl) fun _ _ _ => rfl
      · exact loosen loose
  | freeze id =>
    exact wired.congr (children_update_frozen id true) fun c _ _ => parent?_update_frozen id true c
  | unfreeze id =>
    exact wired.congr (children_update_frozen id false) fun c _ _ =>
      parent?_update_frozen id false c
  | regroup id =>
    obtain ⟨t, held, -, regroups⟩ := wired.regroups allowed upright
    exact regroups.wired wired held

theorem Wired.run (wired : a.Wired) (allowed : Edit.Each Edit.Allowed edits a)
    (upright : Edit.Each Edit.Upright edits a) : (Edit.run edits a).Wired := by
  induction edits generalizing a with
  | nil => exact wired
  | cons e edits ih => exact ih (wired.apply allowed.1 upright.1) allowed.2 upright.2

/-- Whatever was done to build an arena, to regroup at a node rearranges the nodes below it: they
are those below the new top, each in one place, and no node gets below itself. -/
theorem regroup_rearranges
    (allowed : Edit.Each Edit.Allowed edits empty) (upright : Edit.Each Edit.Upright edits empty)
    (bound : id < (Edit.run edits empty).size)
    (own : ∀ p, (Edit.run edits empty).parent? id = some p →
      ¬ ReflTransGen (Edit.run edits empty).IsChild p id) :
    (∃ t, ((Edit.run edits empty).regroup id).2.1.Holds t ∧
      t.id = ((Edit.run edits empty).regroup id).1 ∧ t.ids.Nodup ∧
      ∀ i, i ∈ t.ids ↔ ReflTransGen (Edit.run edits empty).IsChild i id) ∧
    ∀ c, ¬ TransGen ((Edit.run edits empty).regroup id).2.1.IsChild c c := by
  have wired := wired_empty.run allowed upright
  obtain ⟨t, held, rfl, regroups⟩ := wired.regroups bound own
  have perm := Tree.ids_grouped t
  refine ⟨⟨t.grouped, regroups.held, regroups.top.symm,
    perm.nodup_iff.mpr (wired.nodup held), fun i => ?_⟩, (regroups.wired wired held).acyclic⟩
  rw [perm.mem_iff, held.mem_ids_iff]

/-- The nodes of `a + b * c` as they are read. -/
def productOverSum : List Edit :=
  [.add .name (some ⟨.var, "a", .null⟩), .add .name (some ⟨.var, "b", .null⟩),
    .add (.binaryOp 0 1) (some (.canonical .add .null)), .add .name (some ⟨.var, "c", .null⟩),
    .add (.binaryOp 2 3) (some (.canonical .multiply .null))]

theorem regroup_productOverSum : Edit.Each Edit.Allowed productOverSum empty ∧
    ∃ t, ((Edit.run productOverSum empty).regroup 4).2.1.Holds t ∧ t.id = 2 ∧ t.ids.Nodup := by
  have allowed : Edit.Each Edit.Allowed productOverSum empty := by
    simp only [productOverSum, Edit.Each, Edit.Allowed, and_true]
    decide
  have top : (Edit.run productOverSum empty).parent? 4 = none := by decide
  obtain ⟨⟨t, held, same, nodup, -⟩, -⟩ :=
    regroup_rearranges allowed (by simp [productOverSum, Edit.Each, Edit.Upright])
      (by decide : 4 < (Edit.run productOverSum empty).size) (by simp [top])
  exact ⟨allowed, t, held, same.trans (by decide), nodup⟩

/-- A product that hung on the right of a sum, and then takes that sum as its left operand. -/
def turned : List Edit :=
  [.add .name (some ⟨.var, "a", .null⟩), .add .name (some ⟨.var, "b", .null⟩),
    .add (.binaryOp 0 1) (some (.canonical .multiply .null)),
    .add .name (some ⟨.var, "c", .null⟩), .add (.binaryOp 3 2) (some (.canonical .add .null)),
    .add .name (some ⟨.var, "d", .null⟩), .setRight 4 5, .setLeft 2 4]

/-- The product still names the sum as its parent. Regrouping puts the sum on top, and then in the
place of the product, which is below itself. -/
theorem regroup_turned : Edit.Each Edit.Allowed turned empty ∧ 2 < (Edit.run turned empty).size ∧
    TransGen ((Edit.run turned empty).regroup 2).2.1.IsChild 4 4 := by
  refine ⟨?_, by decide, .single ?_⟩
  · simp only [turned, Edit.Each, Edit.Allowed, and_true]
    refine ⟨by decide, by decide, by decide, by decide, by decide, by decide, ⟨by decide, ?_⟩,
      by decide, ?_⟩
    · exact not_reaches_of_closed [5] (by decide) (by decide) (by decide)
    · exact not_reaches_of_closed [4, 3, 5] (by decide) (by decide) (by decide)
  · rw [IsChild]
    decide

end Arena
end ScriptSyntax
