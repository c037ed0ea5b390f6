import ScriptSyntax.Proofs.Editing.Displacing
import ScriptSyntax.Proofs.Editing.Edits

/-! Runs of what may be done to an arena without regrouping. Slots take in nodes that no slot holds,
so no two slots come to hold one node, although a node that lost its slot still names its former
holder and may be put back anywhere. -/
namespace ScriptSyntax

open Relation (TransGen ReflTransGen)

inductive Mutation where
  | add (shape : Shape NodeId) (token : Option Token)
  | rewire (r : Rewiring)
  | setRoot (id : NodeId)
  | detach (id : NodeId)
  | freeze (id : NodeId)
  | unfreeze (id : NodeId)

namespace Mutation

def perform? (a : Arena) : Mutation → Option Arena
  | add shape token => (a.add? shape token).map (·.2)
  | rewire r => r.perform? a
  | setRoot id => a.setRoot? id
  | detach id => a.detach? id
  | freeze id => a.freeze? id
  | unfreeze id => a.unfreeze? id

/-- What goes into a slot is held by none, and the node with the slot is not below it. -/
def Admitted (a : Arena) : Mutation → Prop
  | add shape _ => shape.children.Nodup ∧ ∀ c ∈ shape.children, a.IsLoose c
  | rewire r => r.site < a.size ∧ a.IsLoose r.incoming ∧
    ∀ p old, r.slot? a = some (p, old) → ¬ ReflTransGen a.IsChild p r.incoming
  | setRoot id | detach id => a.IsLoose id
  | freeze id | unfreeze id => id < a.size

/-- The arena after a list of mutations, none if one of them is refused. -/
def run? (mutations : List Mutation) (a : Arena) : Option Arena := mutations.foldlM perform? a

/-- Whether each of the mutations is admitted where it is performed. -/
def AllAdmitted : List Mutation → Arena → Prop
  | [], _ => True
  | m :: mutations, a => m.Admitted a ∧ ∀ b, m.perform? a = some b → AllAdmitted mutations b

end Mutation

namespace Arena

variable {a b : Arena} {m : Mutation} {mutations done : List Mutation} {p old new i : NodeId}

/-- A wired arena in which parents and the root are stored nodes. -/
structure InOrder (a : Arena) : Prop where
  wired : a.Wired
  parents : ∀ c p, a.parent? c = some p → p < a.size
  root : ∀ i, a.root = some i → i < a.size

theorem inOrder_empty : empty.InOrder :=
  ⟨wired_empty, fun c p named => by simp [parent?, node?, empty] at named, nofun⟩

theorem Fills.takes (fills : a.Fills b p old new) : a.Takes b p new where
  others i apart := by rw [fills.children, if_neg apart]
  slots c child := by
    rw [fills.children, if_pos rfl] at child
    obtain ⟨d, member, rfl⟩ := List.mem_map.mp child
    split
    · exact .inl rfl
    · exact .inr member
  once outside nodup := by
    rw [fills.children, if_pos rfl]
    refine List.Nodup.map_on (fun c hc d hd same => ?_) nodup
    split at same <;> split at same <;> simp_all
  parents := fills.parents

theorem InOrder.fills (order : a.InOrder) (fills : a.Fills b p old new) (holder : p < a.size)
    (loose : a.IsLoose new) (apart : ¬ ReflTransGen a.IsChild p new) : b.InOrder where
  wired := order.wired.take fills.takes loose apart
  parents c q named := by
    rw [fills.parents] at named
    rw [fills.size]
    split at named
    · exact Option.some.inj named ▸ holder
    · exact order.parents c q named
  root i top := by
    rw [fills.size]
    exact order.root i (fills.root ▸ top)

theorem InOrder.spares (order : a.InOrder) (spares : a.Spares b new) (loose : a.IsLoose new) :
    b.InOrder where
  wired := order.wired.congr spares.children fun c p child =>
    spares.parents c fun same => loose.2 p (same ▸ child)
  parents c q named := by
    rw [spares.size]
    by_cases same : c = new
    · subst same
      rcases spares.own with own | own <;> rw [own] at named
      · exact order.parents c q named
      · cases named
    · exact order.parents c q (spares.parents c same ▸ named)
  root i top := by
    rw [spares.size]
    rcases spares.root with kept | moved
    · exact order.root i (kept ▸ top)
    · exact Option.some.inj (moved.symm.trans top) ▸ loose.1

theorem InOrder.add {shape : Shape NodeId} {token : Option Token} (order : a.InOrder)
    (nodup : shape.children.Nodup) (loose : ∀ c ∈ shape.children, a.IsLoose c) :
    (a.add shape token).2.InOrder where
  wired := order.wired.add nodup loose
  parents c q named := by
    rw [size_add]
    by_cases old : c < a.size
    · rw [parent?_add old] at named
      split at named
      · exact Option.some.inj named ▸ Nat.lt_succ_self _
      · exact Nat.lt_succ_of_lt (order.parents c q named)
    · have bound := lt_size_of_parent? named
      rw [size_add] at bound
      have own : c = a.size := Nat.eq_of_lt_succ_of_not_lt bound old
      simp [parent?, node?_add, own] at named
  root i top := by
    rw [size_add]
    exact Nat.lt_succ_of_lt (order.root i (root_add ▸ top))

theorem InOrder.update_frozen (order : a.InOrder) (frozen : Bool) :
    (a.update i fun n => { n with frozen }).InOrder where
  wired := order.wired.congr (children_update_frozen i frozen) fun c _ _ =>
    parent?_update_frozen i frozen c
  parents c q named := by
    rw [size_update]
    exact order.parents c q (parent?_update_frozen i frozen c ▸ named)
  root j top := by
    rw [size_update]
    exact order.root j top

/-- One mutation. -/
theorem InOrder.perform (order : a.InOrder) (admitted : m.Admitted a) :
    ∃ b, m.perform? a = some b ∧ b.InOrder := by
  cases m with
  | add shape token =>
    refine ⟨(a.add shape token).2, ?_, order.add admitted.1 admitted.2⟩
    have bounds : ∀ c ∈ shape.children, c < a.size := fun c child => (admitted.2 c child).1
    simpa [Mutation.perform?, add?, touching] using bounds
  | rewire r =>
    obtain ⟨there, loose, apart⟩ := admitted
    cases slot : r.slot? a with
    | none =>
      obtain ⟨b, done, spares⟩ := Rewiring.spares there loose.1 order.parents slot
      exact ⟨b, done, order.spares spares loose⟩
    | some slot' =>
      obtain ⟨b, done, fills⟩ := Rewiring.fills order.wired.once loose.1 slot
      have holder := lt_size_of_child (Rewiring.mem_of_slot? slot)
      exact ⟨b, done, order.fills fills holder loose (apart _ _ slot)⟩
  | setRoot id =>
    refine ⟨a.setRoot id, ?_, order.spares (spares_setRoot admitted.1) admitted⟩
    simpa [Mutation.perform?, setRoot?, touching] using admitted.1
  | detach id =>
    refine ⟨a.detach id, ?_, order.spares (spares_detach admitted.1) admitted⟩
    simpa [Mutation.perform?, detach?, touching] using admitted.1
  | freeze id =>
    refine ⟨a.freeze id, ?_, order.update_frozen true⟩
    simpa [Mutation.perform?, freeze?, touching, Mutation.Admitted] using admitted
  | unfreeze id =>
    refine ⟨a.unfreeze id, ?_, order.update_frozen false⟩
    simpa [Mutation.perform?, unfreeze?, touching, Mutation.Admitted] using admitted

theorem InOrder.run (order : a.InOrder) (admitted : Mutation.AllAdmitted mutations a)
    (begun : done <+: mutations) : ∃ b, Mutation.run? done a = some b ∧ b.InOrder := by
  induction mutations generalizing a done with
  | nil =>
    rw [List.prefix_nil.mp begun]
    exact ⟨a, rfl, order⟩
  | cons m mutations ih =>
    rcases List.prefix_cons_iff.mp begun with rfl | ⟨rest, rfl, later⟩
    · exact ⟨a, rfl, order⟩
    obtain ⟨b, performed, order⟩ := order.perform admitted.1
    obtain ⟨c, ran, order⟩ := ih order (admitted.2 b performed) later
    exact ⟨c, by simpa [Mutation.run?, performed] using ran, order⟩

theorem Wired.isLinked (wired : a.Wired) : a.isLinked = true := by
  simp only [Arena.isLinked, List.all_eq_true, decide_eq_true_eq]
  exact fun p _ c child => wired.under c p child

/-- However an arena is built from nothing by mutations that are admitted, after each of them
children name their holders, no two slots hold one node, no node is below itself, and every id that
is stored names a node. None of them is refused. -/
theorem mutations_keep_order (admitted : Mutation.AllAdmitted mutations empty)
    (begun : done <+: mutations) : ∃ a, Mutation.run? done empty = some a ∧ a.isLinked = true ∧
      a.slots.Nodup ∧ (∀ c, ¬ TransGen a.IsChild c c) ∧ (∀ c ∈ a.slots, c < a.size) ∧
      (∀ c p, a.parent? c = some p → p < a.size) ∧ ∀ i, a.root = some i → i < a.size := by
  obtain ⟨a, ran, order⟩ := inOrder_empty.run admitted begun
  have wired := order.wired
  refine ⟨a, ran, wired.isLinked, (nodup_slots_iff wired.under).mpr wired.once, wired.acyclic, ?_,
    order.parents, order.root⟩
  intro c held
  obtain ⟨p, child⟩ := mem_slots.mp held
  exact wired.lt_size child

theorem allAdmitted_cons (admitted : m.Admitted a) (performed : m.perform? a = some b)
    (rest : Mutation.AllAdmitted mutations b) : Mutation.AllAdmitted (m :: mutations) a :=
  ⟨admitted, fun _ again => Option.some.inj (performed.symm.trans again) ▸ rest⟩

/-- A sum whose left operand gives way to a third name and comes back as its right one, when it
still names the sum as its parent. So does the right operand when a fourth name is to take its
place, which is none. -/
def exchanged : List Mutation :=
  [.add .name (some ⟨.var, "a", .null⟩), .add .name (some ⟨.var, "b", .null⟩),
    .add (.binaryOp 0 1) (some (.canonical .add .null)), .add .name (some ⟨.var, "c", .null⟩),
    .rewire (.setLeft 2 3), .rewire (.replaceChild 2 1 0), .add .name (some ⟨.var, "d", .null⟩),
    .rewire (.supplant 1 4), .setRoot 2]

theorem mutations_exchanged : Mutation.AllAdmitted exchanged empty ∧
    ∃ a, Mutation.run? exchanged empty = some a ∧ a.isLinked = true ∧ a.slots.Nodup ∧
      a.slots = [3, 0] := by
  have admitted : Mutation.AllAdmitted exchanged empty := by
    refine allAdmitted_cons ⟨by decide, by decide⟩ rfl <|
      allAdmitted_cons ⟨by decide, by decide⟩ rfl <|
      allAdmitted_cons ⟨by decide, by decide⟩ rfl <|
      allAdmitted_cons ⟨by decide, by decide⟩ rfl <|
      allAdmitted_cons ⟨by decide, by decide, ?_⟩ rfl <|
      allAdmitted_cons ⟨by decide, by decide, ?_⟩ rfl <|
      allAdmitted_cons ⟨by decide, by decide⟩ rfl <|
      allAdmitted_cons ⟨by decide, by decide, ?_⟩ rfl <|
      allAdmitted_cons (show IsLoose _ 2 by decide) rfl trivial
    · rintro _ _ ⟨⟩
      exact not_reaches_of_closed [3] (by decide) (by decide) (by decide)
    · rintro _ _ ⟨⟩
      exact not_reaches_of_closed [0] (by decide) (by decide) (by decide)
    · rintro _ _ ⟨⟩
  obtain ⟨a, ran, linked, once, -⟩ := mutations_keep_order admitted (List.prefix_refl _)
  refine ⟨admitted, a, ran, linked, once, ?_⟩
  have slots : (Mutation.run? exchanged empty).map slots = some [3, 0] := by decide
  simpa [ran] using slots

end Arena
end ScriptSyntax
