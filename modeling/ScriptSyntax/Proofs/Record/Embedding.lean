import ScriptSyntax.Proofs.Editing.Wired
import ScriptSyntax.Proofs.Layout.Arena
import ScriptSyntax.Proofs.Record.Plain

/-! Arenas within arenas. The external form of a node is the same in every arena that holds the
nodes below it, wherever it holds them. -/
namespace ScriptSyntax

/-- The external form of a block. -/
def Value.block (statements : List Value) : Value :=
  .record [("type", .text "Block"), ("token", .null), ("statements", .list statements)]

namespace Arena

variable {a b c : Arena} {o depth : Nat} {i : NodeId} {ids : List NodeId} {ts : List Tree}

/-- Each node of `a` stands in `b`, `o` places on, up to its parent and the places of its tokens. -/
def Embeds (o : Nat) (a b : Arena) : Prop :=
  ∀ i n, a.node? i = some n → ∃ m, b.node? (o + i) = some m ∧
    m.shape.unplaced = n.shape.lifted o ∧ m.token.map Token.unplaced = n.token.map Token.unplaced

/-- The external form tells no places. -/
theorem recordWithin_unplaced (a : Arena) (depth : Nat) (i : NodeId) :
    a.unplaced.recordWithin depth i = a.recordWithin depth i := by
  induction depth generalizing i with
  | zero => rfl
  | succ depth ih =>
    rw [Arena.recordWithin, Arena.recordWithin, node?_unplaced]
    cases a.node? i with
    | none => rfl
    | some n =>
      have below : n.shape.map (a.unplaced.recordWithin depth) =
          n.shape.map (a.recordWithin depth) := Shape.map_congr _ fun c _ => ih c
      simp only [Option.map_some, Node.unplaced]
      rw [Shape.record_eq_map, Shape.map_unplaced, Shape.record_unplaced, below,
        ← Shape.record_eq_map]

theorem record_unplaced (a : Arena) : a.unplaced.record = a.record := by
  have root : a.unplaced.root = a.root := rfl
  rw [record, record, root]
  refine congrArg (a.root.elim Value.null) (funext fun i => ?_)
  rw [nodeRecord, nodeRecord, size_unplaced, recordWithin_unplaced]

theorem IsForest.isAcyclic (forest : a.IsForest ts) : a.IsAcyclic where
  within c p child := by
    obtain ⟨t, member, inside⟩ := List.mem_flatMap.mp (forest.mem_ids_iff.mpr
      (lt_size_of_child child))
    have held := forest.holds t member
    exact held.lt_size (held.mem_of_isChild inside child)
  acyclic c cycle := by
    obtain ⟨p, -, child⟩ := Relation.TransGen.tail'_iff.mp cycle
    obtain ⟨t, member, inside⟩ := List.mem_flatMap.mp (forest.mem_ids_iff.mpr
      (lt_size_of_child child))
    exact (forest.holds t member).acyclic (nodup_of_mem forest.nodup member) inside cycle

theorem Embeds.recordWithin (embeds : Embeds o a b) (ends : a.EndsWithin depth i) :
    b.recordWithin depth (o + i) = a.recordWithin depth i := by
  induction depth generalizing i with
  | zero => rfl
  | succ depth ih =>
    obtain ⟨n, stored, below⟩ := ends
    obtain ⟨m, stored', shape, token⟩ := embeds i n stored
    have children : (m.shape.map (b.recordWithin depth)).unplaced =
        (n.shape.map (a.recordWithin depth)).unplaced := by
      rw [← Shape.map_unplaced, ← Shape.map_unplaced, shape, Shape.lifted, ← Shape.map_unplaced,
        Shape.map_map]
      exact Shape.map_congr _ fun c child => ih (below c (by simpa using child))
    rw [Arena.recordWithin, Arena.recordWithin, stored, stored']
    dsimp only
    rw [Shape.record_eq_map (b.recordWithin depth), Shape.record_eq_map (a.recordWithin depth),
      ← Shape.record_unplaced, children, token, Shape.record_unplaced]

theorem Embeds.nodeRecord (embeds : Embeds o a b) (acyclic : a.IsAcyclic) (bound : i < a.size)
    (room : a.size ≤ depth) : b.recordWithin depth (o + i) = a.nodeRecord i := by
  have ends := acyclic.endsWithin bound
  rw [embeds.recordWithin (ends.mono room), ends.recordWithin_eq room, Arena.nodeRecord]

/-- The arena with a block on top that holds these statements, as its root. -/
def rooted (a : Arena) (ids : List NodeId) : Arena := (a.add (.block ids) none).2.setRoot a.size

theorem rooted_unplaced (a : Arena) (ids : List NodeId) :
    a.unplaced.rooted ids = (a.rooted ids).unplaced := by
  have block := congrArg Prod.snd (a.add_unplaced (.block ids) none)
  rw [rooted, rooted, ← setRoot_unplaced, size_unplaced]
  exact congrArg (·.setRoot a.size) block

theorem embeds_atop (same : c.unplaced = b.atop a.unplaced) : Embeds 0 a c ∧ Embeds a.size b c := by
  have stored (i : NodeId) : (c.node? i).map Node.unplaced = (b.atop a.unplaced).node? i := by
    rw [← same, node?_unplaced]
  constructor
  · intro i n found
    have below : i < a.unplaced.size := by
      by_contra outside
      simp [node?_eq_none (size_unplaced a ▸ outside)] at found
    have there := stored i
    rw [node?_atop_of_lt _ _ below, node?_unplaced, found] at there
    obtain ⟨m, found', alike⟩ := Option.map_eq_some_iff.mp there
    rw [← Node.lifted_zero n] at alike
    exact ⟨m, by rwa [Nat.zero_add], congrArg Node.shape alike, congrArg Node.token alike⟩
  · intro i n found
    have there := stored (a.unplaced.size + i)
    rw [node?_atop, found] at there
    obtain ⟨m, found', alike⟩ := Option.map_eq_some_iff.mp there
    rw [size_unplaced] at found' alike
    exact ⟨m, found', congrArg Node.shape alike, congrArg Node.token alike⟩

theorem embeds_of_unplaced (same : b.unplaced = a.unplaced) : Embeds 0 a b := by
  have none : empty.unplaced = empty := by simp [unplaced, empty]
  exact (@embeds_atop empty a b (by rw [none, atop_empty, same])).2

theorem Embeds.refl (a : Arena) : Embeds 0 a a := fun i n stored =>
  ⟨n, (Nat.zero_add i).symm ▸ stored, (Shape.lifted_zero n.shape).symm, rfl⟩

theorem Embeds.trans (below : Embeds 0 a b) (above : Embeds 0 b c) : Embeds 0 a c := by
  intro i n stored
  obtain ⟨m, stored', shape, token⟩ := below i n stored
  obtain ⟨k, stored'', shape', token'⟩ := above _ m stored'
  rw [Nat.zero_add (0 + i)] at stored''
  rw [Shape.lifted_zero] at shape shape'
  exact ⟨k, stored'', shape'.trans (shape.trans (Shape.lifted_zero _).symm), token'.trans token⟩

theorem Embeds.size_le (embeds : Embeds 0 a b) : a.size ≤ b.size := by
  by_contra fewer
  obtain ⟨n, stored⟩ : ∃ n, a.node? b.size = some n :=
    ⟨_, Array.getElem?_eq_getElem (Nat.lt_of_not_le fewer)⟩
  obtain ⟨m, stored', -⟩ := embeds _ n stored
  simp [node?_eq_none] at stored'

theorem Embeds.nodeRecord_eq (embeds : Embeds 0 a b) (acyclic : a.IsAcyclic) (bound : i < a.size) :
    b.nodeRecord i = a.nodeRecord i := by
  have record := embeds.nodeRecord acyclic bound embeds.size_le
  rwa [Nat.zero_add] at record

/-- The same trees have the same nodes up to their parents. -/
theorem IsForest.embeds (forest : a.IsForest ts) (held : ∀ t ∈ ts, b.Holds t) : Embeds 0 a b := by
  intro i n stored
  have bound : i < a.size := by
    by_contra outside
    simp [node?_eq_none outside] at stored
  obtain ⟨t, member, inside⟩ := List.mem_flatMap.mp (forest.mem_ids_iff.mpr bound)
  obtain ⟨p, node, rfl⟩ := List.mem_map.mp inside
  obtain ⟨parent, found⟩ := (forest.holds t member p node).stored
  obtain ⟨parent', found'⟩ := (held t member p node).stored
  cases stored.symm.trans found
  rw [Nat.zero_add]
  exact ⟨_, found', (Shape.lifted_zero _).symm, rfl⟩

theorem embeds_freeze (a : Arena) (r : NodeId) : Embeds 0 a (a.freeze r) := by
  intro i n stored
  rw [Nat.zero_add, freeze, node?_update, stored]
  split <;> exact ⟨_, rfl, (Shape.lifted_zero n.shape).symm, rfl⟩

/-- The block on top leaves the nodes below it. -/
theorem Embeds.rooted (embeds : Embeds o a b) (ids : List NodeId) : Embeds o a (b.rooted ids) := by
  intro i n stored
  obtain ⟨m, there, alike⟩ := embeds i n stored
  have bound : o + i < b.size := by
    by_contra outside
    simp [node?_eq_none outside] at there
  rw [Arena.rooted, node?_setRoot, if_neg (Nat.ne_of_gt bound), node?_add,
    if_neg (Nat.ne_of_lt bound), there]
  split <;> exact ⟨_, rfl, alike⟩

/-- The trees of a forest look the same in an arena that embeds them, under a block on top. -/
theorem IsForest.records (forest : a.IsForest ts) (embeds : Embeds o a b) (room : a.size ≤ b.size)
    (ids : List NodeId) :
    ((ts.map Tree.id).map (o + ·)).map ((b.rooted ids).recordWithin b.size) =
      (ts.map Tree.id).map a.nodeRecord := by
  rw [List.map_map]
  refine List.map_congr_left fun i member => ?_
  obtain ⟨t, held, rfl⟩ := List.mem_map.mp member
  have bound : t.id < a.size := (forest.holds t held).lt_size t.id_mem_ids
  exact (embeds.rooted ids).nodeRecord forest.isAcyclic bound room

theorem record_rooted (a : Arena) (ids : List NodeId) :
    (a.rooted ids).record = .block (ids.map ((a.rooted ids).recordWithin a.size)) := by
  have size : (a.rooted ids).size = a.size + 1 := by rw [rooted, size_setRoot, size_add]
  have stored : (a.rooted ids).node? a.size = some ⟨.block ids, none, none, false⟩ := by
    rw [rooted, node?_setRoot, if_pos rfl, node?_add, if_pos rfl]
    rfl
  have root : (a.rooted ids).root = some a.size := rfl
  rw [record, root, Option.elim_some, nodeRecord, size, recordWithin, stored]
  rfl

theorem IsForest.record_rooted (forest : a.IsForest ts) :
    (a.rooted (ts.map Tree.id)).record = .block ((ts.map Tree.id).map a.nodeRecord) := by
  rw [Arena.record_rooted, ← forest.records (.refl a) (Nat.le_refl a.size) (ts.map Tree.id)]
  simp only [Nat.zero_add, List.map_id']

/-- Trees of two forests under one block, where one arena is on top of the other. -/
theorem IsForest.record_atop {us : List Tree} (forest : a.IsForest ts) (forest' : b.IsForest us)
    (same : c.unplaced = b.atop a.unplaced) :
    (c.rooted (ts.map Tree.id ++ (us.map Tree.id).map (a.size + ·))).record =
      .block ((ts.map Tree.id).map a.nodeRecord ++ (us.map Tree.id).map b.nodeRecord) := by
  have size : c.size = a.size + b.size := by
    rw [← size_unplaced, same, size_atop, size_unplaced]
  obtain ⟨below, above⟩ := embeds_atop same
  have first := forest.records below (by omega)
  have second := forest'.records above (by omega)
  simp only [Nat.zero_add, List.map_id'] at first
  rw [Arena.record_rooted, List.map_append, first, second]

end Arena
end ScriptSyntax
