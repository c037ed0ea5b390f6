import ScriptSyntax.Proofs.Grouping.Rewiring
import ScriptSyntax.Tree.Regroup

/-! The arena is followed through the insertion of one operator of a chain after the other: at every
moment it holds the tree of the operators so far, and the others wait with their right operands. -/
namespace ScriptSyntax

open ScriptSyntax.Tree (close lowest stack arrange Spine)

namespace Arena

variable {a b : Arena} {l h : Link} {t base operand left : Tree} {i x y : NodeId}
  {links done todo : List Link} {above : List (Link × Tree)}

theorem Shows.rank? (shown : a.Shows t) : a.rank? t.id = t.unlink?.map fun p => p.2.rank := by
  obtain ⟨parent, stored⟩ := shown.stored
  obtain ⟨id, shape, token, frozen⟩ := t
  simp only [Arena.rank?, stored]
  cases shape <;> cases token <;>
    simp only [Tree.shape_node, Tree.token_node, Shape.map, Tree.unlink?]
  all_goals first
    | rfl
    | (split <;> simp_all)

theorem Shows.openRank? (shown : a.Shows t) :
    a.openRank? t.id = t.unlinkOpen?.map fun p => p.2.rank := by
  rw [Arena.openRank?, shown.isFrozen, Tree.unlinkOpen?]
  split
  · rfl
  · exact shown.rank?

theorem Stores.left? (stores : a.Stores l x y) : a.left? l.id = some x := by
  simp [Arena.left?, stores.shape?]

theorem Stores.right? (stores : a.Stores l x y) : a.right? l.id = some y := by
  simp [Arena.right?, stores.shape?]

theorem Stores.congr (stores : a.Stores l x y) (own : b.node? l.id = a.node? l.id)
    (center : ∀ i ∈ l.center.toList.flatMap Tree.ids, b.node? i = a.node? i) :
    b.Stores l x y := by
  refine ⟨own ▸ stores.stored, fun c hc => (stores.center c hc).congr fun i hi => center i ?_⟩
  exact List.mem_flatMap.mpr ⟨c, Option.mem_toList.mpr hc, hi⟩

theorem unchain_stack (held : a.Holds (stack base links)) (closed : base.unlinkOpen? = none)
    (opened : ∀ l ∈ links, l.frozen = false) {depth : Nat} (deep : links.length ≤ depth)
    (chain : List (NodeId × Nat)) :
    a.unchain depth (stack base links).id chain =
      (links.map (fun l => (l.id, l.rank)) ++ chain, base.id) := by
  induction links using List.reverseRecOn generalizing depth chain with
  | nil =>
    have none : a.openRank? base.id = none := by
      rw [(held base base.self_mem_nodes).openRank?, closed]
      rfl
    cases depth <;> simp [unchain, none]
  | append_singleton rest l ih =>
    rw [Tree.stack_append_singleton] at held ⊢
    obtain ⟨stores, hangs, -⟩ := holds_join.mp held
    have last : (l.join (stack base rest) l.right).unlinkOpen? = some (stack base rest, l) :=
      Tree.unlinkOpen?_eq_some.mpr ⟨Tree.unlink?_join .., opened l (by simp)⟩
    have rank : a.openRank? l.id = some l.rank := by
      rw [← l.id_join (stack base rest) l.right, (held _ (Tree.self_mem_nodes _)).openRank?, last]
      rfl
    cases depth with
    | zero => simp at deep
    | succ depth =>
      simp only [Link.id_join, unchain, rank, stores.left?]
      rw [ih hangs.held (fun m member => opened m (by simp [member])) (by simpa using deep)]
      simp

theorem ids_rotate (h l : Link) (left operand : Tree) :
    (h.join left (l.join operand l.right)).ids.Perm ((h.join left operand).ids ++ l.ids) := by
  rw [List.perm_iff_count]
  intro i
  simp only [Tree.ids_join, Link.ids, List.count_cons, List.count_append]
  omega

/-- The arena `b` differs from `a` in that the operator `l` has the right operand of the operator
`h` as its left one, and the place of that operand. -/
structure Rotates (a b : Arena) (h l : Link) (left operand : Tree) : Prop where
  held : b.Holds (h.join left (l.join operand l.right))
  under : b.parent? h.id = a.parent? h.id
  outside : ∀ i, i ∉ (h.join left operand).ids → i ≠ l.id → b.node? i = a.node? i

theorem Holds.rotate (held : a.Holds (h.join left operand)) (stores : a.Stores l x l.right.id)
    (hangs : a.Hangs l.right l.id) (nodup : ((h.join left operand).ids ++ l.ids).Nodup) :
    Rotates a ((a.setLeft l.id operand.id).setRight h.id l.id) h l left operand := by
  obtain ⟨holder, first, last⟩ := holds_join.mp held
  have nodupMoved := (ids_rotate h l left operand).nodup_iff.mpr nodup
  have distinct := Link.distinct_of_nodup nodupMoved
  have operandLower : operand.id ∈ (l.join operand l.right).ids := by
    rw [Tree.ids_join]
    simp [operand.id_mem_ids]
  have linkLower : l.id ∈ (l.join operand l.right).ids := (l.join operand l.right).id_mem_ids
  have untouched (i : NodeId) (apart : i ∉ (l.join operand l.right).ids) :
      (a.setLeft l.id operand.id).node? i = a.node? i := by
    apply node?_setLeft_of_ne stores
    · rintro rfl
      exact apart linkLower
    · rintro rfl
      exact apart operandLower
  have lowered : (a.setLeft l.id operand.id).Holds (l.join operand l.right) :=
    stores.setLeft hangs last.held distinct.nodupRight
  have holder' : (a.setLeft l.id operand.id).Stores h left.id operand.id :=
    holder.congr (untouched h.id distinct.ownRight) fun i member =>
      untouched i (distinct.centerRight member)
  have first' : (a.setLeft l.id operand.id).Hangs left h.id :=
    first.congr fun i member => untouched i (distinct.leftRight member)
  constructor
  case held => exact holder'.setRight first' lowered nodupMoved
  case under =>
    have apart : l.id ≠ h.id := distinct.right_ne
    rw [Arena.parent?, node?_setRight holder'.shape?, if_neg apart, setShape, node?_update,
      if_pos rfl, untouched h.id distinct.ownRight, Arena.parent?]
    cases a.node? h.id <;> rfl
  case outside =>
    intro i outer own
    have holding : i ≠ h.id := by
      rintro rfl
      exact outer (h.join left operand).id_mem_ids
    have apart : i ≠ operand.id := by
      rintro rfl
      apply outer
      rw [Tree.ids_join]
      simp [operand.id_mem_ids]
    exact (node?_setRight_of_ne holder' holding own).trans (node?_setLeft_of_ne stores own apart)

/-- An operator takes the lower end of a spine as its left operand, and its place. -/
theorem Holds.lower (held : a.Holds (close ((h, left) :: above) operand))
    (stores : a.Stores l x l.right.id) (hangs : a.Hangs l.right l.id)
    (nodup : ((close ((h, left) :: above) operand).ids ++ l.ids).Nodup) :
    ((a.setLeft l.id operand.id).setRight h.id l.id).Holds
        (close ((h, left) :: above) (l.join operand l.right)) ∧
      ∀ i, i ∉ (close ((h, left) :: above) operand).ids → i ∉ l.ids →
        ((a.setLeft l.id operand.id).setRight h.id l.id).node? i = a.node? i := by
  have inside := Tree.mem_nodes_close above (h.join left operand)
  have within := Tree.ids_sublist inside
  have linkOwn : l.id ∈ l.ids := by simp [Link.ids]
  obtain ⟨nodupClose, -, disjoint⟩ := List.nodup_append.mp nodup
  have rotates := (held.of_mem inside).rotate stores hangs ((within.append_right l.ids).nodup nodup)
  constructor
  · change Holds _ (close above (h.join left (l.join operand l.right)))
    refine Holds.close_congr held nodupClose rfl rotates.held rotates.under ?_
    intro i member apart
    apply rotates.outside i apart
    rintro rfl
    exact disjoint _ member _ linkOwn rfl
  · intro i outside own
    apply rotates.outside i
    · intro member
      exact outside (within.subset member)
    · rintro rfl
      exact own linkOwn

@[simp] theorem root_setLeft (a : Arena) (x y : NodeId) : (a.setLeft x y).root = a.root := by
  unfold setLeft
  repeat' split
  all_goals rfl

@[simp] theorem root_setRight (a : Arena) (x y : NodeId) : (a.setRight x y).root = a.root := by
  unfold setRight
  repeat' split
  all_goals rfl

@[simp] theorem size_setLeft (a : Arena) (x y : NodeId) : (a.setLeft x y).size = a.size := by
  unfold setLeft setParent setShape
  repeat' split
  all_goals simp

@[simp] theorem size_setRight (a : Arena) (x y : NodeId) : (a.setRight x y).size = a.size := by
  unfold setRight setParent setShape
  repeat' split
  all_goals simp

end Arena

namespace Grouping

variable {g : Grouping} {base : Tree} {done todo : List Link} {l : Link} {a : Arena}

/-- The operators `done` are grouped over `base`. -/
structure Grouped (g : Grouping) (base : Tree) (done : List Link) : Prop where
  held : g.arena.Holds (arrange base done)
  top : g.top = (arrange base done).id
  spine : ∃ spine, Spine base done spine ∧ g.spine = spine.map fun f => (f.1.id, f.1.rank)

/-- An operator of a chain that is not inserted yet: its right operand hangs under it. -/
structure Waits (a : Arena) (l : Link) : Prop where
  stored : ∃ x, a.Stores l x l.right.id
  right : a.Hangs l.right l.id

theorem Waits.congr {b : Arena} (waits : Waits a l)
    (same : ∀ i ∈ l.ids, b.node? i = a.node? i) : Waits b l := by
  obtain ⟨x, stores⟩ := waits.stored
  constructor
  · refine ⟨x, stores.congr (same _ (by simp [Link.ids])) fun i member => same i ?_⟩
    simp only [Link.ids, List.mem_cons, List.mem_append]
    exact .inr (.inl member)
  · apply waits.right.congr
    intro i member
    exact same i (by simp [Link.ids, member])

/-- What inserting operators does to the arena: the rest of it stays, and when the last operator
comes on top it stays where it hangs. -/
structure Inserts (g g' : Grouping) (base : Tree) (done links : List Link) : Prop where
  grouped : g'.Grouped base (done ++ links)
  outside : ∀ i, i ∉ (arrange base done).ids → i ∉ links.flatMap Link.ids →
    g'.arena.node? i = g.arena.node? i
  place : ∀ l ∈ links.getLast?, g'.top = l.id → g'.arena.parent? l.id = g.arena.parent? l.id
  root : g'.arena.root = g.arena.root
  size : g'.arena.size = g.arena.size

/-- An operator that binds no tighter than any before it comes on top. -/
theorem Grouped.insert_top (grouped : g.Grouped base done) (waits : Waits g.arena l)
    (nodup : ((arrange base done).ids ++ l.ids).Nodup) (tighter : ∀ m ∈ done, m.rank ≤ l.rank)
    (dropped : g.spine.dropWhile (fun held => held.2 ≤ l.rank) = []) :
    g.Inserts (g.insert (l.id, l.rank)) base done [l] := by
  obtain ⟨x, stores⟩ := waits.stored
  have ids : l.id ∈ l.ids := by simp [Link.ids]
  have apart : l.id ≠ (arrange base done).id := fun same =>
    (List.nodup_append.mp nodup).2.2 _ (arrange base done).id_mem_ids _ ids same.symm
  have whole : arrange base (done ++ [l]) = l.join (arrange base done) l.right := by
    simpa using Tree.arrange_append base tighter (by simp : ∀ m ∈ ([] : List Link), m.rank < l.rank)
  have perm : (l.join (arrange base done) l.right).ids.Perm ((arrange base done).ids ++ l.ids) := by
    rw [Tree.ids_join]
    exact List.perm_middle.symm
  have inserted : g.insert (l.id, l.rank) =
      { g with arena := g.arena.setLeft l.id g.top, top := l.id, spine := [(l.id, l.rank)] } := by
    simp only [Grouping.insert, dropped]
  rw [inserted, grouped.top]
  constructor
  case grouped =>
    constructor
    case held =>
      rw [whole]
      exact stores.setLeft waits.right grouped.held (perm.nodup_iff.mpr nodup)
    case top => rw [whole, Link.id_join]
    case spine => exact ⟨_, .cons .nil tighter (by simp), rfl⟩
  case outside =>
    intro i outer own
    apply Arena.node?_setLeft_of_ne stores
    · rintro rfl
      exact own (by simpa using ids)
    · rintro rfl
      exact outer (Tree.id_mem_ids _)
  case place =>
    intro m last _
    obtain rfl : l = m := by simpa using last
    simp only [Arena.parent?, Arena.node?_setLeft stores.shape?, if_neg apart.symm,
      Arena.setShape, Arena.node?_update]
    cases g.arena.node? l.id <;> simp
  case root => simp
  case size => simp

/-- An operator that binds tighter than the lowest one of the spine that is left goes below it, over
the operators that were read after that one. -/
theorem Grouped.insert_under {kept between : List Link} {h : Link} {left : Tree}
    {above : List (Link × Tree)} (grouped : g.Grouped base (kept ++ between))
    (waits : Waits g.arena l) (nodup : ((arrange base (kept ++ between)).ids ++ l.ids).Nodup)
    (shorter : Spine base kept ((h, left) :: above)) (tighter : ∀ m ∈ between, m.rank ≤ l.rank)
    (looser : l.rank < h.rank)
    (dropped : g.spine.dropWhile (fun held => held.2 ≤ l.rank) =
      ((h, left) :: above).map fun f => (f.1.id, f.1.rank)) :
    g.Inserts (g.insert (l.id, l.rank)) base (kept ++ between) [l] := by
  obtain ⟨held, top, -⟩ := grouped
  have bound : ∀ m ∈ between, m.rank < h.rank := fun m member =>
    Nat.lt_of_le_of_lt (tighter m member) looser
  have closed : close ((h, left) :: above) (arrange h.right between) =
      arrange base (kept ++ between) := by
    apply shorter.close_arrange
    rintro m member f ⟨⟩
    exact bound m member
  rw [← closed] at held nodup top
  have disjoint := (List.nodup_append.mp nodup).2.2
  obtain ⟨holding, -, -⟩ := Arena.holds_join.mp
    (held.of_mem (Tree.mem_nodes_close above (h.join left (arrange h.right between))))
  have lower : arrange h.right (between ++ [l]) = l.join (arrange h.right between) l.right := by
    simpa using
      Tree.arrange_append h.right tighter (by simp : ∀ m ∈ ([] : List Link), m.rank < l.rank)
  have whole : arrange base (kept ++ between ++ [l]) =
      close ((h, left) :: above) (l.join (arrange h.right between) l.right) := by
    rw [List.append_assoc, ← lower]
    symm
    apply shorter.close_arrange
    rintro m member f ⟨⟩
    rcases List.mem_append.mp member with old | new
    · exact bound m old
    · rw [List.mem_singleton.mp new]
      exact looser
  obtain ⟨lowered, frame⟩ := held.lower (waits.stored.choose_spec) waits.right nodup
  have inserted : g.insert (l.id, l.rank) =
      { g with
        arena := (g.arena.setLeft l.id (arrange h.right between).id).setRight h.id l.id
        spine := (l.id, l.rank) :: (h.id, h.rank) :: above.map fun f => (f.1.id, f.1.rank)
        rotations := ⟨g.arena.label h.id, g.arena.label l.id⟩ :: g.rotations } := by
    simp only [Grouping.insert, dropped, List.map_cons, holding.right?]
  rw [inserted]
  constructor
  case grouped =>
    constructor
    case held => exact whole ▸ lowered
    case top =>
      rw [whole, top]
      exact Tree.id_close
    case spine =>
      refine ⟨_, .cons shorter tighter ?_, rfl⟩
      rintro f ⟨⟩
      exact looser
  case outside => simpa [← closed] using frame
  case place =>
    rintro _ ⟨⟩ same
    have inside : l.id ∈ (close ((h, left) :: above) (arrange h.right between)).ids :=
      same ▸ top ▸ Tree.id_mem_ids _
    exact absurd rfl (disjoint _ inside _ (by simp [Link.ids]))
  case root => simp
  case size => simp

/-- Inserting an operator groups it with the operators before it. -/
theorem Grouped.insert (grouped : g.Grouped base done) (waits : Waits g.arena l)
    (nodup : ((arrange base done).ids ++ l.ids).Nodup) :
    g.Inserts (g.insert (l.id, l.rank)) base done [l] := by
  obtain ⟨spine, valid, eq⟩ := grouped.spine
  obtain ⟨kept, between, rfl, tighter, shorter⟩ := valid.dropWhile l.rank
  have looser := Tree.looser_head spine l.rank
  have dropped : g.spine.dropWhile (fun held => held.2 ≤ l.rank) =
      (spine.dropWhile fun f => f.1.rank ≤ l.rank).map fun f => (f.1.id, f.1.rank) := by
    rw [eq, List.dropWhile_map]
    rfl
  cases below : spine.dropWhile fun f => f.1.rank ≤ l.rank with
  | nil =>
    rw [below] at shorter dropped
    cases shorter
    exact grouped.insert_top waits nodup tighter dropped
  | cons holder above =>
    rw [below] at shorter dropped looser
    exact grouped.insert_under waits nodup shorter tighter (looser _ rfl) dropped

theorem ids_arrange_append (base : Tree) (done : List Link) (links : List Link) :
    ((arrange base (done ++ links)).ids).Perm
      ((arrange base done).ids ++ links.flatMap Link.ids) := by
  refine (Tree.ids_arrange base (done ++ links)).trans ?_
  rw [List.flatMap_append, ← List.append_assoc]
  exact (Tree.ids_arrange base done).symm.append_right _

/-- A chain is grouped by inserting its operators one after the other. -/
theorem Grouped.run (grouped : g.Grouped base done) (waits : ∀ l ∈ todo, Waits g.arena l)
    (nodup : ((arrange base done).ids ++ todo.flatMap Link.ids).Nodup) :
    g.Inserts (todo.foldl (fun g l => g.insert (l.id, l.rank)) g) base done todo := by
  induction todo generalizing g done with
  | nil =>
    rw [← List.append_nil done] at grouped
    exact ⟨grouped, fun _ _ _ => rfl, by simp, rfl, rfl⟩
  | cons l rest ih =>
    rw [List.flatMap_cons, ← List.append_assoc] at nodup
    obtain ⟨first, -, later⟩ := List.nodup_append.mp nodup
    have one := grouped.insert (waits l (by simp)) first
    have perm := ids_arrange_append base done [l]
    rw [List.flatMap_cons, List.flatMap_nil, List.append_nil] at perm
    have untouched (i : NodeId) (member : i ∈ rest.flatMap Link.ids) :
        (g.insert (l.id, l.rank)).arena.node? i = g.arena.node? i :=
      one.outside i (fun inside => later i (by simp [inside]) i member rfl)
        (fun inside => later i (by simp_all) i member rfl)
    have all := ih one.grouped
      (fun m member => (waits m (by simp [member])).congr fun i inside =>
        untouched i (List.mem_flatMap.mpr ⟨m, member, inside⟩))
      ((perm.append_right _).nodup_iff.mpr nodup)
    rw [List.foldl_cons]
    constructor
    case grouped => simpa using all.grouped
    case outside =>
      intro i outer own
      rw [List.flatMap_cons, List.mem_append, not_or] at own
      rw [all.outside i ?_ own.2, one.outside i outer (by simpa using own.1)]
      intro inside
      exact (List.mem_append.mp (perm.mem_iff.mp inside)).elim outer own.1
    case place =>
      intro m last top
      cases rest with
      | nil => exact one.place m last top
      | cons n rest =>
        rw [List.getLast?_cons_cons] at last
        rw [all.place m last top, Arena.parent?, Arena.parent?, untouched]
        exact List.mem_flatMap.mpr ⟨m, List.mem_of_getLast? last, by simp [Link.ids]⟩
    case root => exact all.root.trans one.root
    case size => exact all.size.trans one.size

/-- The operators of a chain wait, each with its right operand. -/
theorem waits_stack {links : List Link} (held : a.Holds (stack base links)) :
    a.Holds base ∧ ∀ l ∈ links, Waits a l := by
  induction links using List.reverseRecOn with
  | nil => exact ⟨held, by simp⟩
  | append_singleton rest l ih =>
    rw [Tree.stack_append_singleton] at held
    obtain ⟨stores, left, right⟩ := Arena.holds_join.mp held
    obtain ⟨first, waits⟩ := ih left.held
    rw [List.forall_mem_append, List.forall_mem_singleton]
    exact ⟨first, waits, ⟨_, stores⟩, right⟩

end Grouping
end ScriptSyntax
