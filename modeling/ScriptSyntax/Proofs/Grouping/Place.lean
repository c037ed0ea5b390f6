import ScriptSyntax.Proofs.Grouping.Chain

/-! Regrouping takes over the place of the chain and disturbs nothing else. Of the arena before and
the one after it is told which nodes are the same, and in what the others differ. -/
namespace ScriptSyntax

open Relation (ReflTransGen)
open ScriptSyntax.Tree (stack arrange)

namespace Shape

variable {α : Type} {s : Shape α} {c i j x y : α}

/-- The middle operand of a ternary operator. -/
def center? : Shape α → Option α
  | ternaryOp _ b _ => some b
  | _ => none

theorem replace_of_not_mem [DecidableEq α] (outside : i ∉ s.children) : s.replace i j = s := by
  have kept : ∀ c ∈ s.children, (if c = i then j else c) = c := fun c child =>
    if_neg fun same : c = i => outside (same ▸ child)
  rw [replace, map_congr s kept, map_self]

theorem replace_self [DecidableEq α] (s : Shape α) (i : α) : s.replace i i = s := by
  have kept : ∀ c ∈ s.children, (if c = i then i else c) = c := fun c _ =>
    ite_eq_right_iff.mpr Eq.symm
  rw [replace, map_congr s kept, map_self]

theorem tag_withOuter (s : Shape α) (x y : α) : ((s.withLeft x).withRight y).tag = s.tag := by
  cases s <;> rfl

theorem center?_withOuter (s : Shape α) (x y : α) :
    ((s.withLeft x).withRight y).center? = s.center? := by
  cases s <;> rfl

/-- What an operator does not hold any more with other outer operands was one of the old ones. -/
theorem outer_of_gone (child : c ∈ s.children)
    (gone : c ∉ ((s.withLeft x).withRight y).children) : s.left? = some c ∨ s.right? = some c := by
  cases s <;> simp_all [children, withLeft, withRight, left?, right?] <;> tauto

/-- What an operator did not hold before it got other outer operands is one of these. -/
theorem outer_of_new (child : c ∈ ((s.withLeft x).withRight y).children)
    (new : c ∉ s.children) : ((s.withLeft x).withRight y).left? = some c ∨
      ((s.withLeft x).withRight y).right? = some c := by
  cases s <;> simp_all [children, withLeft, withRight, left?, right?] <;> tauto

end Shape

namespace Arena

variable {a b : Arena} {t : Tree} {c i p q r r' old new top : NodeId} {parent : Option NodeId}

/-! What is hung in the place of another node. -/

theorem node?_hang_holder (apart : p ≠ new) : (a.hang (some p) old new).node? p =
    (a.node? p).map fun n => { n with shape := n.shape.replace old new } := by
  simp only [hang, replaceChild_eq]
  split
  · next absent =>
    rw [shape?, Option.map_eq_none_iff] at absent
    rw [absent, Option.map_none]
  · next s stored =>
    obtain ⟨n, found, rfl⟩ := Option.map_eq_some_iff.mp stored
    split
    · rw [setParent, node?_update, if_neg apart.symm, setShape, node?_update, if_pos rfl, found]
      rfl
    · next outside => simp [found, Shape.replace_of_not_mem outside]

theorem root_replaceChild : (a.replaceChild p old new).2.root = a.root := by
  simp only [replaceChild_eq]
  split
  · rfl
  · split <;> rfl

theorem root_hang : (a.hang parent old new).root =
    if parent = none ∧ a.root = some old then some new else a.root := by
  cases parent with
  | none =>
    by_cases root : a.root = some old
    · simp [hang, root, setRoot]
    · simp [hang, root, detach, setParent, update]
  | some p => simp [hang, root_replaceChild]

theorem Holds.node?_regroup_holder (held : a.Holds t) (nodup : t.ids.Nodup)
    (under : a.parent? t.id = some p) (outer : p ∉ t.ids) :
    (a.regroup t.id).2.1.node? p = (a.node? p).map fun n =>
      { n with shape := n.shape.replace t.id (a.regroup t.id).1 } := by
  have same : (a.node? p).map (fun n => { n with shape := n.shape.replace t.id t.id }) =
      a.node? p := by
    simp [Shape.replace_self]
  cases unlinked : t.unlink? with
  | none =>
    rw [held.regroup_of_unlink?_none unlinked, same]
  | some parts =>
    obtain ⟨g, eq, answer, -, frame, -⟩ := held.exists_grouping nodup unlinked
    rw [eq, ← frame p outer]
    by_cases stays : g.top = t.id
    · rw [if_pos stays, stays, frame p outer, same]
    · have apart : p ≠ g.top := by
        rintro rfl
        exact outer ((Tree.ids_grouped t).mem_iff.mp (answer ▸ t.grouped.id_mem_ids))
      rw [if_neg stays, under, node?_hang_holder apart]

theorem Holds.root_regroup (held : a.Holds t) (nodup : t.ids.Nodup) :
    (a.regroup t.id).2.1.root =
      if a.parent? t.id = none ∧ a.root = some t.id then some (a.regroup t.id).1 else a.root := by
  have same : a.root =
      if a.parent? t.id = none ∧ a.root = some t.id then some t.id else a.root := by
    split
    · next root => exact root.2
    · rfl
  cases unlinked : t.unlink? with
  | none =>
    rw [held.regroup_of_unlink?_none unlinked]
    exact same
  | some parts =>
    obtain ⟨g, eq, -, -, -, -, root, -⟩ := held.exists_grouping nodup unlinked
    rw [eq]
    by_cases stays : g.top = t.id
    · rw [if_pos stays, stays, root]
      exact same
    · rw [if_neg stays, root_hang, root]

/-! The links of the arena. -/

/-- Where the links agreed they agree again. -/
theorem Regroups.wellLinked (regroups : a.Regroups b t top) (linked : a.WellLinked)
    (held : a.Holds t) : b.WellLinked := by
  have wired := regroups.wired linked.wired held
  have ids {i : NodeId} : i ∈ t.grouped.ids ↔ i ∈ t.ids := (Tree.ids_grouped t).mem_iff
  refine ⟨fun c p => ⟨wired.under c p, fun under => ?_⟩, wired.once, wired.acyclic⟩
  by_cases inside : c ∈ t.ids
  · by_cases top : c = t.grouped.id
    · -- The new top hangs where the old one hung.
      subst top
      cases above : a.parent? t.id with
      | none =>
        rw [regroups.loose above] at under
        contradiction
      | some q =>
        have child : t.id ∈ a.children q := (linked.agree t.id q).mpr above
        rw [(regroups.holder q above).2.2 child] at under
        obtain rfl := Option.some.inj under
        rw [(regroups.holder q above).2.1]
        exact List.mem_map.mpr ⟨t.id, child, if_pos rfl⟩
    · obtain ⟨h, member, d, child, rfl⟩ := Tree.exists_holder (ids.mpr inside) top
      have shown := regroups.held h member
      rw [shown.adopted d child] at under
      obtain rfl := Option.some.inj under
      rw [shown.children]
      exact List.mem_map_of_mem child
  · have same : b.parent? c = a.parent? c := by
      by_cases above : a.parent? t.id = some c
      · exact (regroups.holder c above).1
      · rw [parent?, regroups.outside c inside above, parent?]
    have child : c ∈ a.children p := (linked.agree c p).mpr (same ▸ under)
    have outer : p ∉ t.ids := fun below => inside (held.mem_of_isChild below child)
    by_cases above : a.parent? t.id = some p
    · rw [(regroups.holder p above).2.1]
      exact List.mem_map.mpr ⟨c, child, if_neg fun eq : c = t.id => inside (eq ▸ t.id_mem_ids)⟩
    · rw [Arena.children, shape?, regroups.outside p outer above]
      exact child

/-- What regrouping at `r` does to an arena, where `r'` takes the place of `r`. -/
structure Rewires (a b : Arena) (r r' : NodeId) : Prop where
  linked : b.WellLinked
  size : b.size = a.size
  /-- The new top is `r` or one of the operators below it. -/
  top : r' = r ∨ a.InChain r r'
  /-- The parent of `r` holds `r'` where it held `r`, and is otherwise the same. -/
  slot : ∀ p, a.parent? r = some p → b.parent? r' = some p ∧
    b.node? p = (a.node? p).map fun n => { n with shape := n.shape.replace r r' }
  loose : a.parent? r = none → b.parent? r' = none
  root : b.root = if a.parent? r = none ∧ a.root = some r then some r' else a.root
  subtree : ∀ i, ReflTransGen b.IsChild i r' ↔ ReflTransGen a.IsChild i r
  outside : ∀ i, ¬ ReflTransGen a.IsChild i r → a.parent? r ≠ some i → b.node? i = a.node? i
  /-- Every node is of the same variant, with the same token, and is finished if it was. -/
  labels : ∀ i, (b.node? i).map (fun n => (n.shape.tag, n.token, n.frozen)) =
    (a.node? i).map fun n => (n.shape.tag, n.token, n.frozen)
  others : ∀ i, ¬ a.InChain r i → a.parent? r ≠ some i → b.shape? i = a.shape? i
  /-- The operators taken apart have other outer operands. -/
  chain : ∀ i, a.InChain r i → ∃ s x y, a.shape? i = some s ∧
    b.shape? i = some ((s.withLeft x).withRight y)

namespace Rewires

variable (rewires : a.Rewires b r r')
include rewires

theorem outer_of_gone (apart : a.parent? r ≠ some q) (child : c ∈ a.children q)
    (gone : c ∉ b.children q) :
    ∃ op, a.InChain r op ∧ (a.left? op = some c ∨ a.right? op = some c) := by
  by_cases within : a.InChain r q
  · obtain ⟨s, x, y, before, after⟩ := rewires.chain q within
    rw [children_of_shape? before] at child
    rw [children_of_shape? after] at gone
    have outer := Shape.outer_of_gone child gone
    exact ⟨q, within, by simpa [left?, right?, before] using outer⟩
  · rw [Arena.children, rewires.others q within apart] at gone
    exact absurd child gone

theorem outer_of_new (apart : a.parent? r ≠ some q) (child : c ∈ b.children q)
    (new : c ∉ a.children q) :
    ∃ op, a.InChain r op ∧ (b.left? op = some c ∨ b.right? op = some c) := by
  by_cases within : a.InChain r q
  · obtain ⟨s, x, y, before, after⟩ := rewires.chain q within
    rw [children_of_shape? before] at new
    rw [children_of_shape? after] at child
    have outer := Shape.outer_of_new child new
    exact ⟨q, within, by simpa [left?, right?, after] using outer⟩
  · rw [Arena.children, rewires.others q within apart] at child
    exact absurd child new

theorem children_holder (under : a.parent? r = some p) :
    b.children p = (a.children p).map fun c => if c = r then r' else c := by
  rw [Arena.children, Arena.children, shape?, (rewires.slot p under).2, shape?]
  cases a.node? p with
  | none => rfl
  | some n => exact Shape.children_map _ _

/-- Ternary operators keep their middle operands. -/
theorem center? (apart : a.parent? r ≠ some i) :
    (b.shape? i).bind Shape.center? = (a.shape? i).bind Shape.center? := by
  by_cases within : a.InChain r i
  · obtain ⟨s, x, y, before, after⟩ := rewires.chain i within
    rw [before, after]
    exact Shape.center?_withOuter s x y
  · rw [rewires.others i within apart]

/-- What hangs elsewhere than before is or was an outer operand of an operator taken apart. -/
theorem operand_of_moved (linked : a.WellLinked) (moved : b.parent? i ≠ a.parent? i) :
    ∃ op, a.InChain r op ∧ ((a.left? op = some i ∨ a.right? op = some i) ∨
      b.left? op = some i ∨ b.right? op = some i) := by
  by_cases top : i = r'
  · subst top
    have place : b.parent? i = a.parent? r := by
      cases under : a.parent? r with
      | none => exact rewires.loose under
      | some p => exact (rewires.slot p under).1
    rcases rewires.top with rfl | chain
    · exact absurd place moved
    · cases chain with
      | top => exact absurd place moved
      | down above left => exact ⟨_, above, .inl (.inl left)⟩
  cases after : b.parent? i with
  | some q =>
    have child : i ∈ b.children q := (rewires.linked.agree i q).mpr after
    have new : i ∉ a.children q := fun old =>
      moved (after.trans ((linked.agree i q).mp old).symm)
    have apart : a.parent? r ≠ some q := by
      intro above
      rw [rewires.children_holder above] at child
      obtain ⟨d, old, same⟩ := List.mem_map.mp child
      split at same
      · exact top same.symm
      · exact new (same ▸ old)
    obtain ⟨op, chain, outer⟩ := rewires.outer_of_new apart child new
    exact ⟨op, chain, .inr outer⟩
  | none =>
    cases before : a.parent? i with
    | none => exact absurd (after.trans before.symm) moved
    | some q =>
      have child : i ∈ a.children q := (linked.agree i q).mpr before
      have gone (p : NodeId) : i ∉ b.children p := fun held => by
        rw [(rewires.linked.agree i p).mp held] at after
        contradiction
      have apart : a.parent? r ≠ some q := by
        intro above
        by_cases same : i = r
        · -- The old top is still somewhere below the new one.
          subst same
          rcases ((rewires.subtree i).mpr .refl).cases_head with eq | ⟨p, up, -⟩
          · exact top eq
          · exact gone p up
        · apply gone q
          rw [rewires.children_holder above]
          exact List.mem_map.mpr ⟨i, child, if_neg same⟩
      obtain ⟨op, chain, outer⟩ := rewires.outer_of_gone apart child (gone q)
      exact ⟨op, chain, .inl outer⟩

/-- The new top is the root just where the old one was, unless the root hangs somewhere. -/
theorem root_iff (linked : a.WellLinked) (loose : a.parent? r = none)
    (upright : ∀ q, a.root = some q → a.parent? q = none) :
    b.root = some r' ↔ a.root = some r := by
  rw [rewires.root]
  by_cases root : a.root = some r
  · simp [loose, root]
  · rw [if_neg fun both => root both.2]
    refine iff_of_false (fun new => ?_) root
    rcases rewires.top with rfl | chain
    · exact root new
    · cases chain with
      | top => exact root new
      | @down p _ _ _ left =>
        obtain ⟨s, stored, left⟩ := Option.bind_eq_some_iff.mp left
        have child : r' ∈ a.children p := by
          rw [children_of_shape? stored]
          exact Shape.mem_children_of_left? left
        have under := upright r' new
        rw [(linked.agree r' p).mp child] at under
        contradiction

end Rewires

/-- At what is no ranked operator nothing happens. -/
theorem WellLinked.rewires_self (linked : a.WellLinked) (plain : a.rank? r = none) :
    a.Rewires a r r := by
  have none (i : NodeId) : ¬ a.InChain r i := by
    intro chain
    obtain ⟨rank, ranked⟩ := chain.ranked
    rw [plain] at ranked
    contradiction
  constructor
  case linked => exact linked
  case size => rfl
  case top => exact .inl rfl
  case slot =>
    intro p under
    refine ⟨under, ?_⟩
    simp [Shape.replace_self]
  case loose => exact id
  case root =>
    split
    · next root => exact root.2
    · rfl
  case subtree => exact fun _ => Iff.rfl
  case outside => exact fun _ _ _ => rfl
  case labels => exact fun _ => rfl
  case others => exact fun _ _ _ => rfl
  case chain => exact fun i chain => absurd chain (none i)

/-- A tree does not hang under one of its own nodes. -/
theorem WellLinked.outside (linked : a.WellLinked) (held : a.Holds t)
    (under : a.parent? t.id = some p) : p ∉ t.ids := by
  intro inside
  exact linked.acyclic p (.tail' (held.reaches inside) ((linked.agree t.id p).mpr under))

theorem WellLinked.regroups (linked : a.WellLinked) (held : a.Holds t) :
    a.Regroups (a.regroup t.id).2.1 t (a.regroup t.id).1 :=
  held.regroup (linked.nodup held) fun _ under => linked.outside held under

theorem Holds.rewires (held : a.Holds t) (linked : a.WellLinked) (ranked : t.unlink?.isSome) :
    a.Rewires (a.regroup t.id).2.1 t.id (a.regroup t.id).1 := by
  obtain ⟨⟨left, last⟩, unlinked⟩ := Option.isSome_iff_exists.mp ranked
  have nodup := linked.nodup held
  have regroups := linked.regroups held
  have same : t.grouped = arrange left.chain.1 (left.chain.2 ++ [last]) :=
    Tree.grouped_of_unlink? unlinked
  have whole := Tree.stack_chain_of_unlink? unlinked
  obtain ⟨-, opened, closed⟩ := Tree.chain_spec left
  have id : last.id = t.id := by
    rw [Tree.unlink?_eq_some.mp unlinked]
    rfl
  have stacked : a.Holds (stack left.chain.1 (left.chain.2 ++ [last])) := whole ▸ held
  have grouped := same ▸ regroups.held
  have chain {i : NodeId} : a.InChain t.id i ↔ ∃ l ∈ left.chain.2 ++ [last], l.id = i := by
    rw [← id]
    exact stacked.inChain_iff closed opened
  have kept {i : NodeId} (inside : i ∈ t.ids) (apart : ¬ a.InChain t.id i) :
      (a.regroup t.id).2.1.node? i =
        (a.node? i).map fun n => { n with parent := (a.regroup t.id).2.1.parent? i } := by
    rw [← whole] at inside
    exact (stacked.node?_eq_or_operator grouped inside).resolve_right (chain.not.mp apart)
  have ids (i : NodeId) : i ∈ t.grouped.ids ↔ i ∈ t.ids := (Tree.ids_grouped t).mem_iff
  constructor
  case linked => exact regroups.wellLinked linked held
  case size => exact regroups.size
  case top =>
    obtain ⟨l, member, top⟩ := id_arrange left.chain.1 (by simp : left.chain.2 ++ [last] ≠ [])
    rw [regroups.top, same, top]
    exact .inr (chain.mpr ⟨l, member, rfl⟩)
  case slot =>
    intro p under
    refine ⟨?_, held.node?_regroup_holder nodup under (linked.outside held under)⟩
    rw [regroups.top]
    exact (regroups.holder p under).2.2 ((linked.agree t.id p).mpr under)
  case loose => exact fun loose => regroups.top ▸ regroups.loose loose
  case root => exact held.root_regroup nodup
  case subtree =>
    intro i
    rw [regroups.top, ← regroups.held.mem_ids_iff, ids, held.mem_ids_iff]
  case outside => exact fun i outer => regroups.outside i (held.mem_ids_iff.not.mpr outer)
  case labels =>
    intro i
    by_cases within : a.InChain t.id i
    · obtain ⟨l, member, rfl⟩ := chain.mp within
      obtain ⟨n, x, y, before, after⟩ := stacked.node?_operator grouped member
      simp [before, after, Shape.tag_withOuter]
    by_cases inside : i ∈ t.ids
    · simp [kept inside within, Function.comp_def]
    by_cases above : a.parent? t.id = some i
    · rw [held.node?_regroup_holder nodup above inside]
      simp [Function.comp_def, Shape.replace, Shape.tag_map]
    · rw [regroups.outside i inside above]
  case others =>
    intro i apart above
    by_cases inside : i ∈ t.ids
    · simp [shape?, kept inside apart, Function.comp_def]
    · rw [shape?, regroups.outside i inside above, shape?]
  case chain =>
    intro i within
    obtain ⟨l, member, rfl⟩ := chain.mp within
    obtain ⟨n, x, y, before, after⟩ := stacked.node?_operator grouped member
    exact ⟨n.shape, x, y, by simp [shape?, before], by simp [shape?, after]⟩

theorem WellLinked.regroup_rewires (linked : a.WellLinked) (r : NodeId) :
    a.Rewires (a.regroup r).2.1 r (a.regroup r).1 := by
  cases ranked : a.rank? r with
  | none =>
    rw [regroup_of_rank?_none ranked]
    exact linked.rewires_self ranked
  | some rank =>
    obtain ⟨t, held, rfl⟩ := linked.exists_tree (lt_size_of_rank? ranked)
    apply held.rewires linked
    rw [(held t t.self_mem_nodes).rank?] at ranked
    simpa using Option.isSome_of_mem ranked

/-- What takes the place of `r` sits in the slot in which `r` sat, or is a root where `r` was. The
links agree again, and nothing changes but that slot, the outer operands of the operators that are
taken apart, and where these operands hang. -/
theorem WellLinked.regroup_frame (linked : a.WellLinked) (r : NodeId) :
    a.Rewires (a.regroup r).2.1 r (a.regroup r).1 ∧
      (a.parent? r = none → (∀ q, a.root = some q → a.parent? q = none) →
        ((a.regroup r).2.1.root = some (a.regroup r).1 ↔ a.root = some r)) ∧
      (∀ i, a.parent? r ≠ some i →
        ((a.regroup r).2.1.shape? i).bind Shape.center? = (a.shape? i).bind Shape.center?) ∧
      ∀ i, (a.regroup r).2.1.parent? i ≠ a.parent? i → ∃ op, a.InChain r op ∧
        ((a.left? op = some i ∨ a.right? op = some i) ∨
          (a.regroup r).2.1.left? op = some i ∨ (a.regroup r).2.1.right? op = some i) := by
  have rewires := linked.regroup_rewires r
  refine ⟨rewires, rewires.root_iff linked, fun i apart => rewires.center? apart, ?_⟩
  exact fun i moved => rewires.operand_of_moved linked moved

theorem regroup_frame_root : (sumUnderProduct.setRoot 4).WellLinked ∧
    (sumUnderProduct.setRoot 4).Rewires ((sumUnderProduct.setRoot 4).regroup 4).2.1 4 2 ∧
    ((sumUnderProduct.setRoot 4).regroup 4).2.1.root = some 2 := by
  have linked : (sumUnderProduct.setRoot 4).WellLinked :=
    wellLinked_of_older (by decide) (by decide) (by decide)
  have top : ((sumUnderProduct.setRoot 4).regroup 4).1 = 2 := by decide
  obtain ⟨rewires, root, -, -⟩ := linked.regroup_frame 4
  rw [top] at rewires root
  refine ⟨linked, rewires, (root (by decide) fun q held => ?_).mpr rfl⟩
  obtain rfl := Option.some.inj held
  decide

/-- The same nodes, with the sum as the root although it hangs under the product. -/
def sumAtRoot : Arena := { sumUnderProduct with root := some 2 }

/-- What takes the place of a node that was no root may have been the root already. -/
theorem root_of_regroup_sumAtRoot : sumAtRoot.WellLinked ∧ sumAtRoot.parent? 4 = none ∧
    ¬ ((sumAtRoot.regroup 4).2.1.root = some (sumAtRoot.regroup 4).1 ↔
      sumAtRoot.root = some 4) :=
  ⟨wellLinked_of_older (by decide) (by decide) (by decide), by decide, by decide⟩

end Arena
end ScriptSyntax
