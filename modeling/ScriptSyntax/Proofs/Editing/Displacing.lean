import ScriptSyntax.Tree.Checked
import ScriptSyntax.Proofs.Editing.Wired

/-! The calls that put a node into a slot. The node that gives up the slot goes on naming the
holder as its parent. It is the only node about which children and parents then disagree, and to
detach it settles that. -/
namespace ScriptSyntax

open Relation (ReflTransGen)

namespace Shape

variable {s : Shape NodeId} {old : NodeId}

/-- No other operand is the left one, so to exchange that one is to exchange its id. -/
theorem children_withLeft (new : NodeId) (once : s.children.Nodup)
    (operand : s.left? = some old) :
    (s.withLeft new).children = s.children.map fun c => if c = old then new else c := by
  cases s <;> cases operand <;> simp only [children, List.nodup_cons, List.mem_cons] at once <;>
    simp [children, withLeft] <;> grind

theorem children_withRight (new : NodeId) (once : s.children.Nodup)
    (operand : s.right? = some old) :
    (s.withRight new).children = s.children.map fun c => if c = old then new else c := by
  cases s <;> cases operand <;> simp only [children, List.nodup_cons, List.mem_cons] at once <;>
    simp [children, withRight] <;> grind

end Shape

namespace Arena

variable {a b : Arena} {c i p old new : NodeId} {s s' : Shape NodeId}

/-- What the slots hold, node by node. -/
def slots (a : Arena) : List NodeId := (List.range a.size).flatMap a.children

theorem mem_slots : c ∈ a.slots ↔ ∃ p, c ∈ a.children p := by
  rw [slots, List.mem_flatMap]
  refine exists_congr fun p => and_iff_right_of_imp fun child => ?_
  exact List.mem_range.mpr (lt_size_of_child child)

/-- Where a held node names its holder, only one node can hold it. -/
theorem nodup_slots_iff (under : ∀ c p, c ∈ a.children p → a.parent? c = some p) :
    a.slots.Nodup ↔ ∀ p, (a.children p).Nodup := by
  have apart : (List.range a.size).Pairwise (Function.onFun List.Disjoint a.children) :=
    List.nodup_range.imp fun {p q} differ c first second =>
      differ (Option.some.inj ((under c p first).symm.trans (under c q second)))
  rw [slots, List.nodup_flatMap, and_iff_left apart]
  refine ⟨fun once p => ?_, fun once p _ => once p⟩
  by_cases bound : p < a.size
  · exact once p (List.mem_range.mpr bound)
  · simp [children, shape?, node?_eq_none bound]

/-- A slot of `p` gives up `old` for `new`. -/
structure Fills (a b : Arena) (p old new : NodeId) : Prop where
  children : ∀ i, b.children i =
    if i = p then (a.children p).map fun c => if c = old then new else c else a.children i
  parents : ∀ i, b.parent? i = if i = new then some p else a.parent? i
  size : b.size = a.size
  root : b.root = a.root

/-- No slot changes, and nothing else than the parent of `new` and the root. -/
structure Spares (a b : Arena) (new : NodeId) : Prop where
  children : ∀ i, b.children i = a.children i
  parents : ∀ i, i ≠ new → b.parent? i = a.parent? i
  own : b.parent? new = a.parent? new ∨ b.parent? new = none
  size : b.size = a.size
  root : b.root = a.root ∨ b.root = some new

theorem Spares.refl : a.Spares a new :=
  ⟨fun _ => rfl, fun _ _ => rfl, .inl rfl, rfl, .inl rfl⟩

theorem spares_detach (bound : new < a.size) : a.Spares (a.detach new) new where
  children _ := children_setParent
  parents i apart := by rw [detach, parent?_setParent bound, if_neg apart]
  own := .inr (by rw [detach, parent?_setParent bound, if_pos rfl])
  size := size_setParent
  root := .inl rfl

theorem spares_setRoot (bound : new < a.size) : a.Spares (a.setRoot new) new where
  children := (spares_detach bound).children
  parents := (spares_detach bound).parents
  own := (spares_detach bound).own
  size := (spares_detach bound).size
  root := .inr rfl

theorem Fills.mem_children_iff (fills : a.Fills b p old new)
    (agree : a.Agrees) (loose : a.parent? new = none) (member : old ∈ a.children p) (c q : NodeId) :
    c ∈ b.children q ↔ b.parent? c = some q ∧ c ≠ old := by
  have held : a.parent? old = some p := (agree old p).mp member
  have free : ∀ q, new ∉ a.children q := fun q child => by simp [(agree new q).mp child] at loose
  have apart : new ≠ old := fun same => free p (same ▸ member)
  rw [fills.parents, fills.children]
  by_cases arrived : c = new
  · subst arrived
    rw [if_pos rfl, and_iff_left apart, Option.some.injEq]
    split
    · next here =>
      exact iff_of_true (List.mem_map.mpr ⟨old, member, if_pos rfl⟩) here.symm
    · next elsewhere => exact iff_of_false (free q) (Ne.symm elsewhere)
  · rw [if_neg arrived, ← agree]
    split
    · next here =>
      subst here
      constructor
      · intro child
        obtain ⟨d, inside, same⟩ := List.mem_map.mp child
        split at same
        · exact absurd same.symm arrived
        · next kept => exact same ▸ ⟨inside, kept⟩
      · rintro ⟨inside, kept⟩
        exact List.mem_map.mpr ⟨c, inside, if_neg kept⟩
    · next elsewhere =>
      refine (and_iff_left_of_imp fun inside same => elsewhere ?_).symm
      rw [same, agree, held] at inside
      exact (Option.some.inj inside).symm

theorem Fills.nodup_children (fills : a.Fills b p old new) (outside : new ∉ a.children p)
    (once : ∀ q, (a.children q).Nodup) (q : NodeId) : (b.children q).Nodup := by
  rw [fills.children]
  split
  · refine List.Nodup.map_on (fun c hc d hd same => ?_) (once p)
    split at same <;> split at same <;> simp_all
  · exact once q

theorem fills_setShape (stored : a.shape? p = some s) (bound : new < a.size)
    (slots : s'.children = s.children.map fun c => if c = old then new else c) :
    a.Fills ((a.setShape p s').setParent new (some p)) p old new where
  children i := by
    rw [children_setParent, children_setShape (lt_size_of_shape? stored), slots,
      children_of_shape? stored]
  parents i := by rw [parent?_setParent (by simpa using bound), parent?_setShape]
  size := by simp
  root := rfl

theorem fills_setLeft (once : (a.children p).Nodup) (bound : new < a.size)
    (operand : a.left? p = some old) : a.Fills (a.setLeft p new) p old new := by
  obtain ⟨s, stored, left⟩ := Option.bind_eq_some_iff.mp operand
  rw [children_of_shape? stored] at once
  simp only [setLeft, stored, left, Option.isSome_some, if_true]
  exact fills_setShape stored bound (Shape.children_withLeft new once left)

theorem fills_setRight (once : (a.children p).Nodup) (bound : new < a.size)
    (operand : a.right? p = some old) : a.Fills (a.setRight p new) p old new := by
  obtain ⟨s, stored, right⟩ := Option.bind_eq_some_iff.mp operand
  rw [children_of_shape? stored] at once
  simp only [setRight, stored, right, Option.isSome_some, if_true]
  exact fills_setShape stored bound (Shape.children_withRight new once right)

theorem fills_replaceChild (bound : new < a.size) (member : old ∈ a.children p) :
    a.Fills (a.replaceChild p old new).2 p old new where
  children _ := children_replaceChild
  parents i := by simp only [parent?_replaceChild bound, member, and_true]
  size := size_replaceChild
  root := by
    simp only [replaceChild_eq]
    split
    · rfl
    · split <;> rfl

theorem mem_children_of_left? (operand : a.left? p = some old) : old ∈ a.children p := by
  obtain ⟨s, stored, left⟩ := Option.bind_eq_some_iff.mp operand
  exact children_of_shape? stored ▸ Shape.mem_children_of_left? left

theorem mem_children_of_right? (operand : a.right? p = some old) : old ∈ a.children p := by
  obtain ⟨s, stored, right⟩ := Option.bind_eq_some_iff.mp operand
  exact children_of_shape? stored ▸ Shape.mem_children_of_right? right

theorem setLeft_eq_self (none : a.left? p = none) : a.setLeft p new = a := by
  cases stored : a.shape? p <;> simp_all [setLeft, left?]

theorem setRight_eq_self (none : a.right? p = none) : a.setRight p new = a := by
  cases stored : a.shape? p <;> simp_all [setRight, right?]

theorem replaceChild_eq_self (outside : old ∉ a.children p) : (a.replaceChild p old new).2 = a := by
  cases stored : a.shape? p <;> simp_all [replaceChild_eq, children]

end Arena

/-- A call that puts a node into a slot. -/
inductive Rewiring where
  | setLeft (id child : NodeId)
  | setRight (id child : NodeId)
  | replaceChild (parent old new : NodeId)
  | supplant (old new : NodeId)

namespace Rewiring

open Arena

variable {a b : Arena} {r : Rewiring} {c p old : NodeId}

def incoming : Rewiring → NodeId
  | setLeft _ child | setRight _ child => child
  | replaceChild _ _ new | supplant _ new => new

/-- The node by which the call finds the slot. -/
def site : Rewiring → NodeId
  | setLeft id _ | setRight id _ => id
  | replaceChild parent _ _ => parent
  | supplant old _ => old

/-- The slot that the call fills, by the node that holds it and the node that it holds. -/
def slot? (a : Arena) : Rewiring → Option (NodeId × NodeId)
  | setLeft id _ => (a.left? id).map (id, ·)
  | setRight id _ => (a.right? id).map (id, ·)
  | replaceChild parent old _ => if old ∈ a.children parent then some (parent, old) else none
  | supplant old _ =>
    (a.parent? old).bind fun p => if old ∈ a.children p then some (p, old) else none

def perform? (a : Arena) : Rewiring → Option Arena
  | setLeft id child => a.setLeft? id child
  | setRight id child => a.setRight? id child
  | replaceChild parent old new => (a.replaceChild? parent old new).map (·.2)
  | supplant old new => a.supplant? old new

theorem mem_of_slot? (slot : r.slot? a = some (p, old)) : old ∈ a.children p := by
  cases r with
  | setLeft id child =>
    obtain ⟨_, operand, same⟩ := Option.map_eq_some_iff.mp slot
    cases same
    exact mem_children_of_left? operand
  | setRight id child =>
    obtain ⟨_, operand, same⟩ := Option.map_eq_some_iff.mp slot
    cases same
    exact mem_children_of_right? operand
  | replaceChild parent before new =>
    obtain ⟨member, same⟩ := Option.ite_none_right_eq_some.mp slot
    cases same
    exact member
  | supplant before new =>
    obtain ⟨_, -, found⟩ := Option.bind_eq_some_iff.mp slot
    obtain ⟨member, same⟩ := Option.ite_none_right_eq_some.mp found
    cases same
    exact member

theorem fills (once : ∀ p, (a.children p).Nodup) (bound : r.incoming < a.size)
    (slot : r.slot? a = some (p, old)) :
    ∃ b, r.perform? a = some b ∧ a.Fills b p old r.incoming := by
  have holder : p < a.size := lt_size_of_child (mem_of_slot? slot)
  cases r with
  | setLeft id child =>
    obtain ⟨_, operand, same⟩ := Option.map_eq_some_iff.mp slot
    cases same
    refine ⟨_, ?_, fills_setLeft (once p) bound operand⟩
    simp_all [perform?, setLeft?, touching, incoming]
  | setRight id child =>
    obtain ⟨_, operand, same⟩ := Option.map_eq_some_iff.mp slot
    cases same
    refine ⟨_, ?_, fills_setRight (once p) bound operand⟩
    simp_all [perform?, setRight?, touching, incoming]
  | replaceChild parent before new =>
    obtain ⟨member, same⟩ := Option.ite_none_right_eq_some.mp slot
    cases same
    refine ⟨_, ?_, fills_replaceChild bound member⟩
    simp_all [perform?, replaceChild?, touching, incoming]
  | supplant before new =>
    obtain ⟨_, under, found⟩ := Option.bind_eq_some_iff.mp slot
    obtain ⟨member, same⟩ := Option.ite_none_right_eq_some.mp found
    cases same
    refine ⟨_, ?_, fills_replaceChild bound member⟩
    simp_all [perform?, supplant?, replaceChild?, touching, incoming]

theorem spares (there : r.site < a.size) (bound : r.incoming < a.size)
    (named : ∀ c p, a.parent? c = some p → p < a.size) (none : r.slot? a = none) :
    ∃ b, r.perform? a = some b ∧ a.Spares b r.incoming := by
  cases r with
  | setLeft id child =>
    have none : a.left? id = .none := Option.map_eq_none_iff.mp none
    refine ⟨a, ?_, .refl⟩
    simp_all [perform?, setLeft?, touching, site, setLeft_eq_self]
  | setRight id child =>
    have none : a.right? id = .none := Option.map_eq_none_iff.mp none
    refine ⟨a, ?_, .refl⟩
    simp_all [perform?, setRight?, touching, site, setRight_eq_self]
  | replaceChild parent old new =>
    have outside : old ∉ a.children parent := by simpa [slot?] using none
    refine ⟨a, ?_, .refl⟩
    simp_all [perform?, replaceChild?, touching, site, replaceChild_eq_self]
  | supplant old new =>
    cases under : a.parent? old with
    | some p =>
      have outside : old ∉ a.children p := by simpa [slot?, under] using none
      refine ⟨a, ?_, .refl⟩
      have inside := named old p under
      simp_all [perform?, supplant?, replaceChild?, touching, replaceChild_eq_self]
    | none =>
      by_cases top : a.root = some old
      · refine ⟨a.setRoot new, ?_, spares_setRoot bound⟩
        simp_all [perform?, supplant?, touching, site, incoming, Arena.supplant, hang]
      · refine ⟨a.detach new, ?_, spares_detach bound⟩
        simp_all [perform?, supplant?, touching, site, incoming, Arena.supplant, hang]

/-- A call that puts a node without a parent into a slot leaves every node and its parent in
agreement, but for the node that was in the slot. That one is held no more and still names the
holder, until it is detached. -/
theorem agrees_but_displaced {a : Arena} {r : Rewiring} (agree : a.Agrees) (once : a.slots.Nodup)
    (there : r.site < a.size) (bound : r.incoming < a.size)
    (loose : a.parent? r.incoming = none) :
    ∃ b, r.perform? a = some b ∧ b.slots.Nodup ∧
      (∀ c p, c ∈ b.children p ↔ b.parent? c = some p ∧ c ∉ (r.slot? a).map Prod.snd) ∧
      ∀ p old, r.slot? a = some (p, old) →
        r.incoming ∈ b.children p ∧ b.parent? old = some p ∧ (b.detach old).Agrees := by
  have under : ∀ c p, c ∈ a.children p → a.parent? c = some p := fun c p => (agree c p).mp
  have free : ∀ p, r.incoming ∉ a.children p := fun p child => by simp [under _ p child] at loose
  have each := (nodup_slots_iff under).mp once
  cases slot : r.slot? a with
  | none =>
    obtain ⟨b, done, spares⟩ := spares there bound
      (fun c p named => lt_size_of_child ((agree c p).mpr named)) slot
    have parents : ∀ c, b.parent? c = a.parent? c := by
      intro c
      by_cases same : c = r.incoming
      · rw [same]
        exact spares.own.elim id fun none => none.trans loose.symm
      · exact spares.parents c same
    have links : b.Agrees := fun c p => by rw [spares.children, parents, agree]
    refine ⟨b, done, (nodup_slots_iff fun c p => (links c p).mp).mpr fun p => ?_, ?_, nofun⟩
    · rw [spares.children]
      exact each p
    · simpa [Agrees] using links
  | some slot' =>
    obtain ⟨p, old⟩ := slot'
    have member := mem_of_slot? slot
    obtain ⟨b, done, fills⟩ := fills each bound slot
    have links := fills.mem_children_iff agree loose member
    have named : b.parent? old = some p := by
      rw [fills.parents, if_neg fun same : old = r.incoming => free p (same ▸ member)]
      exact under old p member
    refine ⟨b, done, ?_, ?_, ?_⟩
    · exact (nodup_slots_iff fun c q child => ((links c q).mp child).1).mpr
        (fills.nodup_children (free p) each)
    · simpa [Agrees, eq_comm] using links
    · intro _ _ same
      cases same
      refine ⟨?_, named, fun c q => ?_⟩
      · refine (links _ p).mpr ⟨?_, fun same => free p (same ▸ member)⟩
        rw [fills.parents, if_pos rfl]
      · rw [detach, children_setParent, links, parent?_setParent (lt_size_of_parent? named)]
        split <;> simp_all

/-- A sum of two names, and a third name beside it. -/
def sumAndName : Arena :=
  let name (a : Arena) (text : String) : Arena := (a.add .name (some ⟨.var, text, .null⟩)).2
  name ((name (name empty "a") "b").add (.binaryOp 0 1) (some (.canonical .add .null))).2 "c"

theorem agrees_sumAndName : sumAndName.Agrees :=
  (wellLinked_of_older (by decide) (by decide) (by decide)).agree

theorem agrees_but_left_operand : sumAndName.Agrees ∧ sumAndName.slots.Nodup ∧
    ∃ b, (setLeft 2 3).perform? sumAndName = some b ∧ 3 ∈ b.children 2 ∧ b.parent? 0 = some 2 ∧
      (b.detach 0).Agrees := by
  have once : sumAndName.slots.Nodup := by decide
  obtain ⟨b, done, -, -, displaced⟩ := agrees_but_displaced (r := setLeft 2 3) agrees_sumAndName
    once (by decide) (by decide) (by decide)
  exact ⟨agrees_sumAndName, once, b, done, displaced 2 0 (by decide)⟩

/-- The third name takes the place of the first, which no slot holds any more. It still names the
sum as its parent. -/
theorem displaced_disagrees : ¬ ∀ (a b : Arena) (r : Rewiring), a.Agrees → a.slots.Nodup →
    a.parent? r.incoming = none →
    (∀ p old, r.slot? a = some (p, old) → ¬ ReflTransGen a.IsChild p r.incoming) →
    r.perform? a = some b → b.Agrees := by
  intro agreement
  have apart : ∀ p old, (setLeft 2 3).slot? sumAndName = some (p, old) →
      ¬ ReflTransGen sumAndName.IsChild p 3 := by
    intro p old slot
    have same : (2, 0) = (p, old) := Option.some.inj (Eq.trans (by decide) slot)
    cases same
    exact not_reaches_of_closed [3] (by decide) (by decide) (by decide)
  have links := agreement sumAndName (sumAndName.setLeft 2 3) (setLeft 2 3) agrees_sumAndName
    (by decide) (by decide) apart (by decide) 0 2
  exact absurd (links.mpr (by decide)) (by decide)

end Rewiring
end ScriptSyntax
