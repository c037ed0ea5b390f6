import Mathlib.Algebra.BigOperators.Group.List.Basic
import ScriptSyntax.Proofs.Forest.Forest
import ScriptSyntax.Proofs.Grouping.Insertion
import ScriptSyntax.Proofs.Grouping.Slots

/-! Regrouping rewires an arena so that it holds the tree that precedence asks for, in the place of
the chain of operators that it held. -/
namespace ScriptSyntax

open ScriptSyntax.Tree (stack arrange)

namespace Arena

variable {a : Arena} {t base : Tree} {links : List Link} {last : Link} {parent : Option NodeId}
  {i : NodeId}

theorem node?_hang {old new : NodeId} (own : ∀ p, parent = some p → i ≠ p) (apart : i ≠ new) :
    (a.hang parent old new).node? i = a.node? i := by
  cases parent with
  | none =>
    simp only [hang, setRoot, detach, setParent]
    split
    · exact (node?_update ..).trans (if_neg apart.symm)
    · rw [node?_update, if_neg apart.symm]
  | some p =>
    have different := own p rfl
    simp only [hang, replaceChild_eq]
    split
    · rfl
    · split
      · rw [setParent, node?_update, if_neg apart.symm, setShape, node?_update,
          if_neg different.symm]
      · rfl

/-- A tree that is hung elsewhere is still held. -/
theorem Holds.hang (held : a.Holds t) (nodup : t.ids.Nodup) {old : NodeId}
    (own : ∀ p, parent = some p → p ∉ t.ids) : (a.hang parent old t.id).Holds t := by
  have apart (i : NodeId) (member : i ∈ t.ids) (p : NodeId) (eq : parent = some p) : i ≠ p :=
    fun same => own p eq (same ▸ member)
  refine held.congr nodup (fun i member other => node?_hang (apart i member) other) ?_
  cases parent with
  | none =>
    simp only [Arena.hang, setRoot, detach, setParent]
    split
    · exact ⟨none, (node?_update ..).trans (if_pos rfl)⟩
    · exact ⟨none, by rw [node?_update, if_pos rfl]⟩
  | some p =>
    have different := apart t.id t.id_mem_ids p rfl
    simp only [Arena.hang, replaceChild_eq]
    split
    · exact ⟨a.parent? t.id, by cases h : a.node? t.id <;> simp [Arena.parent?, h]⟩
    · split
      · exact ⟨some p, by
          rw [setParent, node?_update, if_pos rfl, setShape, node?_update, if_neg different.symm]⟩
      · exact ⟨a.parent? t.id, by cases h : a.node? t.id <;> simp [Arena.parent?, h]⟩

@[simp] theorem size_hang (a : Arena) (parent : Option NodeId) (old new : NodeId) :
    (a.hang parent old new).size = a.size := by
  cases parent <;> simp only [Arena.hang, replaceChild_eq, setRoot, detach, setParent, setShape]
  · split
    · exact size_update ..
    · exact size_update ..
  · split
    · rfl
    · split <;> simp

theorem parent?_hang_none {old new : NodeId} : (a.hang none old new).parent? new = none := by
  simp only [Arena.hang, setRoot, detach, setParent]
  split <;> simp [Arena.parent?, node?, update, Array.getElem?_modify]

theorem root_hang_none {old new : NodeId} (apart : a.root ≠ some old) :
    (a.hang none old new).root = a.root := by
  simp only [Arena.hang, if_neg apart]
  rfl

/-- What regrouping the operators below the top of `t` gives: the id of what comes on top, and the
arena `b`, which holds the grouped tree where `t` hung. -/
structure Regroups (a b : Arena) (t : Tree) (top : NodeId) : Prop where
  top : top = t.grouped.id
  held : b.Holds t.grouped
  outside : ∀ i, i ∉ t.ids → a.parent? t.id ≠ some i → b.node? i = a.node? i
  loose : a.parent? t.id = none → b.parent? t.grouped.id = none
  root : a.parent? t.id = none → a.root ≠ some t.id → b.root = a.root
  size : b.size = a.size
  holder : ∀ p, a.parent? t.id = some p → b.parent? p = a.parent? p ∧
    (b.children p = (a.children p).map fun c => if c = t.id then t.grouped.id else c) ∧
    (t.id ∈ a.children p → b.parent? t.grouped.id = some p)

theorem regroup_of_rank?_none {r : NodeId} (plain : a.rank? r = none) :
    a.regroup r = (r, a, []) := by
  simp [regroup, plain]

theorem Holds.regroup_of_unlink?_none (held : a.Holds t) (unlinked : t.unlink? = none) :
    a.regroup t.id = (t.id, a, []) := by
  apply regroup_of_rank?_none
  rw [(held t t.self_mem_nodes).rank?, unlinked]
  rfl

/-- A chain is no longer than the arena that holds it. -/
theorem Holds.length_lt_size (held : a.Holds (stack base links))
    (nodup : (stack base links).ids.Nodup) : links.length < a.size := by
  have perm := Tree.ids_stack base links
  have bound : ((base.ids ++ links.flatMap Link.ids)).length ≤ (List.range a.size).length := by
    refine (List.subperm_of_subset (perm.nodup_iff.mp nodup) fun i member => ?_).length_le
    exact List.mem_range.mpr (held.lt_size (perm.mem_iff.mpr member))
  have operators : links.length ≤ (links.flatMap Link.ids).length := by
    rw [List.length_flatMap]
    simpa using List.length_le_sum_of_one_le (links.map fun l => l.ids.length)
      (by simp [Link.ids])
  rw [List.length_append, List.length_range, Tree.ids_eq, List.length_cons] at bound
  omega

/-- Going down a chain ends within as many steps as its arena has nodes. -/
theorem Holds.unchain_eq (held : a.Holds t) (nodup : t.ids.Nodup) {depth : Nat}
    (deep : a.size ≤ depth) (chain : List (NodeId × Nat)) :
    a.unchain depth t.id chain = a.unchain a.size t.id chain := by
  obtain ⟨whole, opened, closed⟩ := Tree.chain_spec t
  rw [← whole] at held nodup ⊢
  have short := Nat.le_of_lt (held.length_lt_size nodup)
  rw [unchain_stack held closed opened (Nat.le_trans short deep),
    unchain_stack held closed opened short]

/-- Where the last tree of a forest is regrouped, going down its chain ends. -/
theorem IsForest.unchain_eq {ts : List Tree} (forest : a.IsForest (ts ++ [t])) {left : NodeId}
    (found : a.left? t.id = some left) {depth : Nat} (deep : a.size ≤ depth)
    (chain : List (NodeId × Nat)) :
    a.unchain depth left chain = a.unchain a.size left chain := by
  have held := forest.holds t (by simp)
  have nodup := nodup_of_mem forest.nodup (show t ∈ ts ++ [t] by simp)
  rw [Arena.left?, (held t t.self_mem_nodes).shape?] at found
  obtain ⟨c, child, rfl⟩ : ∃ c ∈ t.children, c.id = left := by
    cases shape : t.shape <;> simp_all [Shape.map, Shape.left?, Tree.children, Shape.children]
  have below := (holds_iff.mp held).2 c child
  exact below.unchain_eq
    ((Tree.ids_sublist (Tree.child_mem_nodes child t.self_mem_nodes)).nodup nodup) deep chain

/-- Regrouping inserts the operators of the chain below `last`, and hangs what comes on top where
`last` hung. -/
theorem regroup_stack (held : a.Holds (stack base (links ++ [last])))
    (nodup : (stack base (links ++ [last])).ids.Nodup) (closed : base.unlinkOpen? = none)
    (opened : ∀ l ∈ links, l.frozen = false) :
    ∃ g, Grouping.Inserts ⟨a, base.id, [], []⟩ g base [] (links ++ [last]) ∧
      a.regroup last.id =
        (g.top, if g.top = last.id then g.arena else g.arena.hang (a.parent? last.id) last.id g.top,
          g.rotations.reverse) := by
  obtain ⟨first, waits⟩ := Grouping.waits_stack held
  refine ⟨_, Grouping.Grouped.run ⟨by simpa using first, by simp, [], .nil, rfl⟩ waits ?_, ?_⟩
  · rw [Tree.arrange_nil]
    exact (Tree.ids_stack ..).nodup_iff.mp nodup
  rw [Tree.stack_append_singleton] at held nodup
  have shown := held _ (Tree.self_mem_nodes _)
  obtain ⟨stores, left, -⟩ := holds_join.mp held
  have rank : a.rank? last.id = some last.rank := by
    have rank := shown.rank?
    rw [Tree.unlink?_join] at rank
    exact rank
  have distinct := Link.distinct_of_nodup nodup
  have deep := Nat.le_of_lt (left.held.length_lt_size distinct.nodupLeft)
  simp only [regroup, rank, stores.left?, unchain_stack left.held closed opened deep,
    List.foldl_append, List.foldl_map, List.foldl_cons, List.foldl_nil]

/-- A chain is grouped among its own nodes. Then what comes on top is hung where the chain hung,
unless it is the same node as before. -/
theorem Holds.exists_grouping {left : Tree} (held : a.Holds t) (nodup : t.ids.Nodup)
    (unlinked : t.unlink? = some (left, last)) : ∃ g : Grouping,
      a.regroup t.id =
        (g.top, if g.top = t.id then g.arena else g.arena.hang (a.parent? t.id) t.id g.top,
          g.rotations.reverse) ∧
      g.top = t.grouped.id ∧ g.arena.Holds t.grouped ∧
      (∀ i, i ∉ t.ids → g.arena.node? i = a.node? i) ∧
      (g.top = t.id → g.arena.parent? t.id = a.parent? t.id) ∧
      g.arena.root = a.root ∧ g.arena.size = a.size := by
  obtain ⟨-, opened, closed⟩ := Tree.chain_spec left
  have same : t.grouped = arrange left.chain.1 (left.chain.2 ++ [last]) :=
    Tree.grouped_of_unlink? unlinked
  have whole := Tree.stack_chain_of_unlink? unlinked
  have top : t.id = last.id := by
    rw [Tree.unlink?_eq_some.mp unlinked]
    rfl
  rw [← whole] at held nodup
  obtain ⟨g, ⟨⟨grouped, answer, -⟩, outside, place, root, size⟩, eq⟩ :=
    regroup_stack held nodup closed opened
  rw [List.nil_append, ← same] at grouped answer
  rw [top]
  refine ⟨g, eq, answer, grouped, fun i outer => ?_, place last (by simp), root, size⟩
  rw [← (Tree.ids_grouped t).mem_iff, same, (Tree.ids_arrange ..).mem_iff, List.mem_append,
    not_or] at outer
  exact outside i (by simpa using outer.1) outer.2

theorem Holds.regroup (held : a.Holds t) (nodup : t.ids.Nodup)
    (own : ∀ p, a.parent? t.id = some p → p ∉ t.ids) :
    a.Regroups (a.regroup t.id).2.1 t (a.regroup t.id).1 := by
  cases unlinked : t.unlink? with
  | none =>
    rw [held.regroup_of_unlink?_none unlinked]
    have same := Tree.grouped_of_unlink?_none unlinked
    constructor
    case top => rw [same]
    case held => rwa [same]
    case outside => exact fun _ _ _ => rfl
    case holder =>
      intro p under
      rw [same]
      exact ⟨rfl, (map_if_self ..).symm, fun _ => under⟩
    case loose => rw [same]; exact id
    case root => exact fun _ _ => rfl
    case size => rfl
  | some parts =>
    obtain ⟨g, eq, answer, grouped, frame, place, root, size⟩ := held.exists_grouping nodup unlinked
    have perm := Tree.ids_grouped t
    have nodup' := perm.nodup_iff.mpr nodup
    rw [eq]
    by_cases stays : g.top = t.id
    · rw [if_pos stays]
      constructor
      case top => exact answer
      case held => exact grouped
      case outside => exact fun i outer _ => frame i outer
      case holder =>
        intro p under
        have kept := frame p (own p under)
        have id : t.grouped.id = t.id := answer.symm.trans stays
        rw [id, map_if_self, parent?, children, shape?, kept]
        refine ⟨rfl, rfl, fun _ => ?_⟩
        rw [place stays, under]
      case loose =>
        intro none
        rw [← answer, stays, place stays]
        exact none
      case root => exact fun _ _ => root
      case size => exact size
    · rw [if_neg stays, answer]
      constructor
      case top => rfl
      case held =>
        apply grouped.hang nodup'
        intro p under
        rw [perm.mem_iff]
        exact own p under
      case outside =>
        intro i outer apart
        rw [node?_hang (fun p eq same => apart (by rw [same, eq])), frame i outer]
        rintro rfl
        exact outer (perm.mem_iff.mp (Tree.id_mem_ids _))
      case holder =>
        intro p under
        have kept := frame p (own p under)
        have apart : p ≠ t.grouped.id := fun same =>
          own p under (perm.mem_iff.mp (same ▸ Tree.id_mem_ids _))
        have bound := grouped.lt_size (Tree.id_mem_ids t.grouped)
        have children : g.arena.children p = a.children p := by
          rw [Arena.children, Arena.shape?, kept]
          rfl
        rw [under, Arena.hang, parent?_replaceChild bound, parent?_replaceChild bound,
          children_replaceChild, if_pos rfl, if_neg (by simp [apart]), children]
        refine ⟨by rw [Arena.parent?, kept]; rfl, rfl, fun member => by simp [member]⟩
      case loose =>
        intro none
        rw [none, parent?_hang_none]
      case root =>
        intro none apart
        rw [none, root_hang_none (root ▸ apart), root]
      case size => exact (size_hang ..).trans size

/-- The last tree of a forest is grouped. -/
theorem Grows.regroup {b : Arena} {ts : List Tree} (grows : b.Grows a (ts ++ [t])) :
    b.Grows (a.regroup t.id).2.1 (ts ++ [t.grouped]) ∧ (a.regroup t.id).1 = t.grouped.id := by
  have last : t ∈ ts ++ [t] := by simp
  have loose := grows.loose t last
  have top := (grows.cover t.id).mp (List.mem_flatMap.mpr ⟨t, last, t.id_mem_ids⟩)
  obtain ⟨answer, held, outside, stays, root, size, -⟩ :=
    (grows.holds t last).regroup (nodup_of_mem grows.nodup last) (by simp [loose])
  have disjoint := (List.nodup_append.mp (List.flatMap_append ▸ grows.nodup)).2.2
  have frame : ∀ s ∈ ts, ∀ i ∈ s.ids, (a.regroup t.id).2.1.node? i = a.node? i := by
    intro s hs i hi
    apply outside i
    · intro inside
      exact disjoint i (List.mem_flatMap.mpr ⟨s, hs, hi⟩) i (by simpa using inside) rfl
    · simp [loose]
  have perm : ((ts ++ [t.grouped]).flatMap Tree.ids).Perm ((ts ++ [t]).flatMap Tree.ids) := by
    simpa using (Tree.ids_grouped t).append_left (ts.flatMap Tree.ids)
  refine ⟨?_, answer⟩
  constructor
  case holds =>
    rw [List.forall_mem_append, List.forall_mem_singleton]
    refine ⟨?_, held⟩
    intro s old
    exact (grows.holds s (by simp [old])).congr_all (frame s old)
  case loose =>
    rw [List.forall_mem_append, List.forall_mem_singleton]
    refine ⟨?_, stays loose⟩
    intro s old
    rw [Arena.parent?, frame s old s.id s.id_mem_ids]
    exact grows.loose s (by simp [old])
  case nodup => exact perm.nodup_iff.mpr grows.nodup
  case cover =>
    intro i
    rw [perm.mem_iff, size]
    exact grows.cover i
  case older =>
    rw [size]
    exact grows.older
  case kept =>
    intro i old
    have apart : i ∉ t.ids := fun inside =>
      Nat.not_lt.mpr ((grows.cover i).mp (List.mem_flatMap.mpr ⟨t, last, inside⟩)).1 old
    rw [outside i apart (by simp [loose])]
    exact grows.kept i old
  case root =>
    intro inside
    have same := grows.root inside
    rw [root loose fun held => Nat.not_lt.mpr top.1 (inside t.id (same ▸ held)), same]

theorem IsForest.regroup {ts : List Tree} (forest : a.IsForest (ts ++ [t])) :
    (a.regroup t.id).2.1.IsForest (ts ++ [t.grouped]) ∧ (a.regroup t.id).1 = t.grouped.id := by
  obtain ⟨grows, top⟩ := (isForest_iff.mp forest).regroup
  exact ⟨isForest_iff.mpr grows, top⟩

end Arena
end ScriptSyntax
