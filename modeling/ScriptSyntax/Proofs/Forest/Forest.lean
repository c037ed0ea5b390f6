import Mathlib.Data.List.Nodup
import Mathlib.Data.List.Pairwise
import Mathlib.Data.List.Perm.Basic
import ScriptSyntax.Proofs.Forest.Holding

/-! Forests. While a program is read its arena consists of the trees made so far, none of which
hangs under another. Adding a node joins the last trees into one, so no node is ever held twice
and none is lost. Where the arena had nodes before, the trees grow next to these, which stay as
they were. -/
namespace ScriptSyntax.Arena

variable {a b : Arena} {ts cs : List Tree} {s t : Tree} {i : NodeId}

/-- The nodes that `a` has besides those of `b` are those of the trees, and no tree hangs
anywhere. The nodes of `b` are as they were. -/
structure Grows (b a : Arena) (ts : List Tree) : Prop where
  holds : ∀ t ∈ ts, a.Holds t
  loose : ∀ t ∈ ts, a.parent? t.id = none
  nodup : (ts.flatMap Tree.ids).Nodup
  cover : ∀ i, i ∈ ts.flatMap Tree.ids ↔ b.size ≤ i ∧ i < a.size
  older : b.size ≤ a.size
  kept : ∀ i < b.size, a.node? i = b.node? i
  root : (∀ r ∈ b.root, r < b.size) → a.root = b.root

/-- The nodes of the arena are those of the trees, and no tree hangs anywhere. -/
structure IsForest (a : Arena) (ts : List Tree) : Prop where
  holds : ∀ t ∈ ts, a.Holds t
  loose : ∀ t ∈ ts, a.parent? t.id = none
  cover : (ts.flatMap Tree.ids).Perm (List.range a.size)
  rootless : a.root = none

theorem grows_self (b : Arena) : b.Grows b [] := by
  constructor
  case holds => exact List.forall_mem_nil _
  case loose => exact List.forall_mem_nil _
  case nodup => exact List.nodup_nil
  case cover =>
    intro i
    exact iff_of_false List.not_mem_nil fun both => Nat.not_lt.mpr both.1 both.2
  case older => exact Nat.le_refl _
  case kept => exact fun _ _ => rfl
  case root => exact fun _ => rfl

theorem isForest_iff : a.IsForest ts ↔ empty.Grows a ts := by
  have none : empty.size = 0 := rfl
  constructor
  · intro forest
    constructor
    case holds => exact forest.holds
    case loose => exact forest.loose
    case nodup => exact forest.cover.nodup_iff.mpr List.nodup_range
    case cover =>
      intro i
      rw [forest.cover.mem_iff, List.mem_range, none]
      exact (and_iff_right (Nat.zero_le i)).symm
    case older => exact Nat.zero_le _
    case kept => exact fun i old => absurd old (Nat.not_lt_zero i)
    case root => exact fun _ => forest.rootless
  · intro grows
    constructor
    case holds => exact grows.holds
    case loose => exact grows.loose
    case cover =>
      rw [List.perm_ext_iff_of_nodup grows.nodup List.nodup_range]
      intro i
      rw [grows.cover, List.mem_range, none]
      exact and_iff_right (Nat.zero_le i)
    case rootless => exact grows.root (by simp [empty])

theorem isForest_empty : empty.IsForest [] := isForest_iff.mpr (grows_self empty)

theorem IsForest.nodup (forest : a.IsForest ts) : (ts.flatMap Tree.ids).Nodup :=
  (isForest_iff.mp forest).nodup

theorem nodup_of_mem (nodup : (ts.flatMap Tree.ids).Nodup) (member : t ∈ ts) : t.ids.Nodup :=
  (List.nodup_flatMap.mp nodup).1 t member

theorem eq_of_shared (nodup : (ts.flatMap Tree.ids).Nodup) (hs : s ∈ ts) (ht : t ∈ ts)
    (inFirst : i ∈ s.ids) (inSecond : i ∈ t.ids) : s = t := by
  by_contra apart
  have symmetric : Std.Symm (Function.onFun List.Disjoint Tree.ids) :=
    ⟨fun _ _ h _ hs ht => h ht hs⟩
  exact (List.nodup_flatMap.mp nodup).2.forall hs ht apart inFirst inSecond

theorem IsForest.mem_ids_iff (forest : a.IsForest ts) :
    i ∈ ts.flatMap Tree.ids ↔ i < a.size :=
  forest.cover.mem_iff.trans List.mem_range

theorem node?_adopt (a : Arena) (ids : List NodeId) (parent : Option NodeId) (i : NodeId) :
    (ids.foldl (fun a child => a.setParent child parent) a).node? i =
      if i ∈ ids then (a.node? i).map fun n => { n with parent } else a.node? i := by
  induction ids generalizing a with
  | nil => simp
  | cons c rest ih =>
    rw [List.foldl_cons, ih, setParent, node?_update]
    by_cases here : c = i <;> by_cases later : i ∈ rest <;>
      simp [here, later, Function.comp_def, @eq_comm _ i c]

theorem size_adopt (a : Arena) (ids : List NodeId) (parent : Option NodeId) :
    (ids.foldl (fun a child => a.setParent child parent) a).size = a.size := by
  induction ids generalizing a with
  | nil => rfl
  | cons c rest ih => rw [List.foldl_cons, ih, setParent, size_update]

theorem root_adopt (a : Arena) (ids : List NodeId) (parent : Option NodeId) :
    (ids.foldl (fun a child => a.setParent child parent) a).root = a.root := by
  induction ids generalizing a with
  | nil => rfl
  | cons c rest ih => rw [List.foldl_cons, ih, setParent, update]

theorem node?_setRoot (a : Arena) (i j : NodeId) : (a.setRoot i).node? j =
    if i = j then (a.node? j).map fun n => { n with parent := none } else a.node? j :=
  node?_update a i (fun n => { n with parent := none }) j

theorem size_setRoot (a : Arena) (i : NodeId) : (a.setRoot i).size = a.size :=
  size_update a i fun n => { n with parent := none }

variable {shape : Shape NodeId} {token : Option Token}

@[simp] theorem size_add : (a.add shape token).2.size = a.size + 1 := by
  simp [add, size_adopt]

@[simp] theorem root_add : (a.add shape token).2.root = a.root := by
  simp only [add, push]
  exact root_adopt ..

theorem node?_add : (a.add shape token).2.node? i =
    if i = a.size then some ⟨shape, token, none, false⟩
    else if i ∈ shape.children then (a.node? i).map fun n => { n with parent := some a.size }
    else a.node? i := by
  simp only [add, node?_push, size_adopt, node?_adopt]

/-- The new node joins the last trees of the forest. -/
theorem Grows.add {shape : Shape Tree} (grows : b.Grows a (ts ++ shape.children))
    (token : Option Token) :
    b.Grows (a.add (shape.map Tree.id) token).2 (ts ++ [.node a.size shape token false]) := by
  have nodup := grows.nodup
  have disjoint := (List.nodup_append.mp (List.flatMap_append ▸ nodup)).2.2
  have within : ∀ t ∈ ts ++ shape.children, ∀ i ∈ t.ids, b.size ≤ i ∧ i < a.size :=
    fun t ht i hi => (grows.cover i).mp (List.mem_flatMap.mpr ⟨t, ht, hi⟩)
  have bound : ∀ t ∈ ts ++ shape.children, ∀ i ∈ t.ids, i ≠ a.size :=
    fun t ht i hi => Nat.ne_of_lt (within t ht i hi).2
  have others : ∀ t ∈ ts, ∀ i ∈ t.ids,
      (a.add (shape.map Tree.id) token).2.node? i = a.node? i := by
    intro t ht i hi
    have outside : i ∉ (shape.map Tree.id).children := by
      rw [Shape.children_map]
      rintro member
      obtain ⟨c, hc, rfl⟩ := List.mem_map.mp member
      exact disjoint _ (List.mem_flatMap.mpr ⟨t, ht, hi⟩) _
        (List.mem_flatMap.mpr ⟨c, hc, c.id_mem_ids⟩) rfl
    rw [node?_add, if_neg (bound t (by simp [ht]) i hi), if_neg outside]
  have joined : ∀ c ∈ shape.children, (a.add (shape.map Tree.id) token).2.node? c.id =
      (a.node? c.id).map fun n => { n with parent := some a.size } := by
    intro c hc
    have inside : c.id ∈ (shape.map Tree.id).children := by
      rw [Shape.children_map]
      exact List.mem_map_of_mem hc
    rw [node?_add, if_neg (bound c (by simp [hc]) _ c.id_mem_ids), if_pos inside]
  have below : ∀ c ∈ shape.children, (a.add (shape.map Tree.id) token).2.Holds c := by
    intro c hc
    have member : c ∈ ts ++ shape.children := by simp [hc]
    refine (grows.holds c member).congr (nodup_of_mem nodup member) ?_ ⟨_, joined c hc⟩
    intro i hi top
    have outside : i ∉ (shape.map Tree.id).children := by
      rw [Shape.children_map]
      intro inside
      obtain ⟨d, hd, rfl⟩ := List.mem_map.mp inside
      exact top (congrArg Tree.id (eq_of_shared nodup (by simp [hd]) member d.id_mem_ids hi))
    rw [node?_add, if_neg (bound c member i hi), if_neg outside]
  have new : (a.add (shape.map Tree.id) token).2.Holds (.node a.size shape token false) := by
    refine holds_iff.mpr ⟨⟨⟨none, by simp [node?_add]⟩, fun c hc => ?_⟩, below⟩
    obtain ⟨parent, stored⟩ := (grows.holds c (by simp [show c ∈ shape.children from hc]) c
      c.self_mem_nodes).stored
    rw [Arena.parent?, joined c hc, stored]
    rfl
  have ids : (ts ++ [Tree.node a.size shape token false]).flatMap Tree.ids =
      ts.flatMap Tree.ids ++ a.size :: shape.children.flatMap Tree.ids := by
    simp [Tree.ids_eq (Tree.node ..)]
  constructor
  case holds =>
    rw [List.forall_mem_append, List.forall_mem_singleton]
    refine ⟨?_, new⟩
    intro t old
    exact (grows.holds t (by simp [old])).congr_all (others t old)
  case loose =>
    rw [List.forall_mem_append, List.forall_mem_singleton]
    constructor
    · intro t old
      rw [Arena.parent?, others t old t.id t.id_mem_ids]
      exact grows.loose t (by simp [old])
    · simp [Arena.parent?, node?_add]
  case nodup =>
    rw [ids, List.nodup_middle, List.nodup_cons, ← List.flatMap_append]
    refine ⟨fun again => ?_, nodup⟩
    exact Nat.lt_irrefl _ ((grows.cover _).mp again).2
  case cover =>
    intro i
    have cover := grows.cover i
    rw [List.flatMap_append, List.mem_append] at cover
    rw [ids, List.mem_append, List.mem_cons, or_left_comm, cover, size_add]
    constructor
    · rintro (rfl | ⟨low, high⟩)
      · exact ⟨grows.older, Nat.lt_succ_self _⟩
      · exact ⟨low, Nat.lt_succ_of_lt high⟩
    · rintro ⟨low, high⟩
      exact (Nat.lt_or_eq_of_le (Nat.le_of_lt_succ high)).symm.imp_right fun below => ⟨low, below⟩
  case older =>
    rw [size_add]
    exact Nat.le_succ_of_le grows.older
  case kept =>
    intro i old
    have outside : i ∉ (shape.map Tree.id).children := by
      rw [Shape.children_map]
      intro inside
      obtain ⟨c, hc, rfl⟩ := List.mem_map.mp inside
      exact Nat.not_lt.mpr (within c (by simp [hc]) c.id c.id_mem_ids).1 old
    rw [node?_add, if_neg (Nat.ne_of_lt (Nat.lt_of_lt_of_le old grows.older)), if_neg outside]
    exact grows.kept i old
  case root =>
    intro inside
    rw [root_add]
    exact grows.root inside

theorem IsForest.add {shape : Shape Tree} (forest : a.IsForest (ts ++ shape.children))
    (token : Option Token) :
    (a.add (shape.map Tree.id) token).2.IsForest (ts ++ [.node a.size shape token false]) :=
  isForest_iff.mpr ((isForest_iff.mp forest).add token)

theorem parent?_freeze : (a.freeze i).parent? s.id = a.parent? s.id := by
  rw [Arena.parent?, Arena.freeze, node?_update]
  split <;> cases h : a.node? s.id <;> simp [Arena.parent?, h]

/-- The last tree of the forest is finished. -/
theorem Grows.freeze (grows : b.Grows a (ts ++ [t])) :
    b.Grows (a.freeze t.id) (ts ++ [t.freeze]) := by
  have nodup := grows.nodup
  have disjoint := (List.nodup_append.mp (List.flatMap_append ▸ nodup)).2.2
  have outside : ∀ i, t.id ≠ i → (a.freeze t.id).node? i = a.node? i := by
    intro i apart
    rw [Arena.freeze, node?_update, if_neg apart]
  have held : a.Holds t := grows.holds t (by simp)
  have last : (a.freeze t.id).Holds t.freeze := by
    refine holds_iff.mpr ⟨⟨?_, fun c hc => ?_⟩, fun c hc => ?_⟩
    · obtain ⟨parent, stored⟩ := (held t t.self_mem_nodes).stored
      refine ⟨parent, ?_⟩
      rw [Arena.freeze, Tree.id_freeze, node?_update, if_pos rfl, stored]
      cases t
      rfl
    · rw [parent?_freeze, Tree.id_freeze]
      exact (held t t.self_mem_nodes).adopted c (by simpa using hc)
    · rw [Tree.children_freeze] at hc
      refine (holds_iff.mp held |>.2 c hc).congr_all fun i hi => outside i ?_
      rintro rfl
      have own := nodup_of_mem nodup (show t ∈ ts ++ [t] by simp)
      rw [Tree.ids_eq, List.nodup_cons] at own
      exact own.1 (List.mem_flatMap.mpr ⟨c, hc, hi⟩)
  have same : t.freeze.ids = t.ids := by
    rw [Tree.ids_eq, Tree.ids_eq t, Tree.id_freeze, Tree.children_freeze]
  have ids : (ts ++ [t.freeze]).flatMap Tree.ids = (ts ++ [t]).flatMap Tree.ids := by
    simp [same]
  have size : (a.freeze t.id).size = a.size := size_update ..
  constructor
  case holds =>
    rw [List.forall_mem_append, List.forall_mem_singleton]
    refine ⟨?_, last⟩
    intro s old
    refine (grows.holds s (by simp [old])).congr_all fun i hi => outside i ?_
    rintro rfl
    exact disjoint _ (List.mem_flatMap.mpr ⟨s, old, hi⟩) _
      (List.mem_flatMap.mpr ⟨t, by simp, t.id_mem_ids⟩) rfl
  case loose =>
    rw [List.forall_mem_append, List.forall_mem_singleton]
    constructor
    · intro s old
      rw [parent?_freeze]
      exact grows.loose s (by simp [old])
    · rw [parent?_freeze, Tree.id_freeze]
      exact grows.loose t (by simp)
  case nodup => rwa [ids]
  case cover =>
    rw [ids, size]
    exact grows.cover
  case older =>
    rw [size]
    exact grows.older
  case kept =>
    intro i old
    have top := (grows.cover t.id).mp (List.mem_flatMap.mpr ⟨t, by simp, t.id_mem_ids⟩)
    rw [outside i (Nat.ne_of_gt (Nat.lt_of_lt_of_le old top.1))]
    exact grows.kept i old
  case root => exact grows.root

theorem IsForest.freeze (forest : a.IsForest (ts ++ [t])) :
    (a.freeze t.id).IsForest (ts ++ [t.freeze]) :=
  isForest_iff.mpr (isForest_iff.mp forest).freeze

end ScriptSyntax.Arena
