import Mathlib.Data.Finset.Card
import ScriptSyntax.Proofs.Grouping.Linked
import ScriptSyntax.Proofs.Record.Text

/-! The trees below the nodes of an arena, apart from how it stores them, and their external forms.
Nothing is lost on the way from one to the other. -/
namespace ScriptSyntax

/-- A syntax tree in which no node has an id and no token has a place. -/
inductive Plain where
  | node (shape : Shape Plain) (token : Option Token)

instance : Inhabited Plain := ⟨.node .noOp none⟩

/-- Shapes that agree under one naming of their children agree under another that tells no more
of them apart. -/
theorem Shape.map_eq_map {α β γ δ : Type} [Inhabited δ] {s : Shape α} {t : Shape β} {f : α → γ}
    {g : β → γ} {f' : α → δ} {g' : β → δ} (same : s.map f = t.map g)
    (carry : ∀ a ∈ s.children, ∀ b ∈ t.children, f a = g b → f' a = g' b) :
    s.map f' = t.map g' := by
  classical
  have children := congrArg Shape.children same
  rw [children_map, children_map] at children
  let name (c : γ) : δ := if known : ∃ b ∈ t.children, g b = c then g' known.choose else default
  have onSecond : ∀ b ∈ t.children, name (g b) = g' b := by
    intro b hb
    have known : ∃ b' ∈ t.children, g b' = g b := ⟨b, hb, rfl⟩
    obtain ⟨a, ha, eq⟩ := List.mem_map.mp (children ▸ List.mem_map_of_mem hb)
    obtain ⟨member, chosen⟩ := known.choose_spec
    simp only [name, dif_pos known]
    rw [← carry a ha _ member (eq.trans chosen.symm), carry a ha b hb eq]
  have onFirst : ∀ a ∈ s.children, name (f a) = f' a := by
    intro a ha
    obtain ⟨b, hb, eq⟩ := List.mem_map.mp (children ▸ List.mem_map_of_mem ha)
    rw [← eq, onSecond b hb, carry a ha b hb eq.symm]
  have renamed := congrArg (Shape.map name) same
  rwa [map_map, map_map, map_congr s onFirst, map_congr t onSecond] at renamed

namespace Arena

variable {a b : Arena} {i j c p : NodeId} {s t : Plain} {depth : Nat}

/-- The tree below a node, spelled out. -/
inductive Spells (a : Arena) : NodeId → Plain → Prop where
  | node {i : NodeId} {n : Node} {below : NodeId → Plain} (stored : a.node? i = some n)
      (children : ∀ c ∈ n.shape.children, Spells a c (below c)) :
      Spells a i (.node (n.shape.unplaced.map below) (n.token.map Token.unplaced))

/-- All children are nodes of the arena, and no node is its own descendant. -/
structure IsAcyclic (a : Arena) : Prop where
  within : ∀ c p, a.IsChild c p → c < a.size
  acyclic : ∀ c, ¬ Relation.TransGen a.IsChild c c

/-- No path down from the node has more nodes than the depth. -/
def EndsWithin (a : Arena) : Nat → NodeId → Prop
  | 0, _ => False
  | depth + 1, i => ∃ n, a.node? i = some n ∧ ∀ c ∈ n.shape.children, a.EndsWithin depth c

theorem EndsWithin.succ (ends : a.EndsWithin depth i) : a.EndsWithin (depth + 1) i := by
  induction depth generalizing i with
  | zero => exact ends.elim
  | succ depth ih =>
    obtain ⟨n, stored, below⟩ := ends
    exact ⟨n, stored, fun c child => ih (below c child)⟩

theorem EndsWithin.mono {depth' : Nat} (ends : a.EndsWithin depth i) (le : depth ≤ depth') :
    a.EndsWithin depth' i := by
  induction le with
  | refl => exact ends
  | step _ ih => exact ih.succ

/-- The external form of a node does not depend on how far the descent may go. -/
theorem EndsWithin.recordWithin_succ (ends : a.EndsWithin depth i) :
    a.recordWithin (depth + 1) i = a.recordWithin depth i := by
  induction depth generalizing i with
  | zero => exact ends.elim
  | succ depth ih =>
    obtain ⟨n, stored, below⟩ := ends
    rw [recordWithin, recordWithin, stored]
    exact Shape.record_congr _ _ fun c child => ih (below c child)

theorem EndsWithin.recordWithin_eq {depth' : Nat} (ends : a.EndsWithin depth i)
    (le : depth ≤ depth') : a.recordWithin depth' i = a.recordWithin depth i := by
  induction le with
  | refl => rfl
  | step le ih => rw [(ends.mono le).recordWithin_succ, ih]

theorem EndsWithin.recordWithin_ne_null (ends : a.EndsWithin depth i) :
    a.recordWithin depth i ≠ .null := by
  cases depth with
  | zero => exact ends.elim
  | succ depth =>
    obtain ⟨n, stored, -⟩ := ends
    simp [recordWithin, stored, Shape.record]

theorem EndsWithin.exists_spells (ends : a.EndsWithin depth i) : ∃ t, a.Spells i t := by
  induction depth generalizing i with
  | zero => exact ends.elim
  | succ depth ih =>
    obtain ⟨n, stored, below⟩ := ends
    have tree : ∀ c, ∃ t, c ∈ n.shape.children → a.Spells c t := by
      intro c
      by_cases child : c ∈ n.shape.children
      · obtain ⟨t, spells⟩ := ih (below c child)
        exact ⟨t, fun _ => spells⟩
      · exact ⟨default, fun h => absurd h child⟩
    choose tree spells using tree
    exact ⟨_, .node stored spells⟩

/-- Two nodes have one external form if and only if the trees below them are one tree. -/
theorem EndsWithin.record_eq_iff (first : a.EndsWithin depth i) (second : b.EndsWithin depth j)
    (left : a.Spells i s) (right : b.Spells j t) :
    a.recordWithin depth i = b.recordWithin depth j ↔ s = t := by
  induction depth generalizing i j s t with
  | zero => exact first.elim
  | succ depth ih =>
    obtain ⟨m, stored, ends⟩ := first
    obtain ⟨n, stored', ends'⟩ := second
    cases left with | @node _ m' f again below
    cases again.symm.trans stored
    cases right with | @node _ n' g again' below'
    cases again'.symm.trans stored'
    have same : ∀ c ∈ m.shape.unplaced.children, ∀ d ∈ n.shape.unplaced.children,
        (a.recordWithin depth c = b.recordWithin depth d ↔ f c = g d) := by
      simp only [Shape.children_unplaced]
      exact fun c hc d hd => ih (ends c hc) (ends' d hd) (below c hc) (below' d hd)
    have there : ∀ v ∈ (m.shape.map (a.recordWithin depth)).children, v ≠ .null := by
      simp only [Shape.children_map, List.forall_mem_map]
      exact fun c hc => (ends c hc).recordWithin_ne_null
    have there' : ∀ v ∈ (n.shape.map (b.recordWithin depth)).children, v ≠ .null := by
      simp only [Shape.children_map, List.forall_mem_map]
      exact fun d hd => (ends' d hd).recordWithin_ne_null
    simp only [recordWithin, stored, stored']
    rw [Shape.record_eq_map (a.recordWithin depth), Shape.record_eq_map (b.recordWithin depth),
      Shape.record_inj there there',
      ← Shape.map_unplaced, ← Shape.map_unplaced, Plain.node.injEq]
    refine and_congr_left fun _ => ⟨fun eq => ?_, fun eq => ?_⟩
    · exact Shape.map_eq_map eq fun c hc d hd => (same c hc d hd).mp
    · exact Shape.map_eq_map eq fun c hc d hd => (same c hc d hd).mpr

theorem Spells.unique (first : a.Spells i s) (second : a.Spells i t) : s = t := by
  induction first generalizing t with
  | @node i n f stored below ih =>
    cases second with | @node _ n' g again below'
    cases again.symm.trans stored
    have same : ∀ c ∈ n.shape.unplaced.children, f c = g c := by
      rw [Shape.children_unplaced]
      exact fun c child => ih c child (below' c child)
    rw [Shape.map_congr _ same]

/-- The descents from a child pass fewer nodes than those from the node that holds it. -/
theorem IsAcyclic.endsWithin (acyclic : a.IsAcyclic) (bound : i < a.size) :
    a.EndsWithin a.size i := by
  classical
  let under (i : NodeId) : Finset NodeId :=
    (Finset.range a.size).filter fun j => Relation.ReflTransGen a.IsChild j i
  have ends : ∀ depth i, i < a.size → (under i).card ≤ depth → a.EndsWithin depth i := by
    intro depth
    induction depth with
    | zero =>
      intro i bound few
      have self : i ∈ under i := by simp [under, bound, Relation.ReflTransGen.refl]
      simp [Finset.card_eq_zero.mp (Nat.le_zero.mp few)] at self
    | succ depth ih =>
      intro i bound few
      refine ⟨a.nodes[i], Array.getElem?_eq_getElem bound, fun c child => ?_⟩
      have step : a.IsChild c i := by
        simpa [IsChild, Arena.children, Arena.shape?, Arena.node?, Array.getElem?_eq_getElem bound]
          using child
      have fewer : under c ⊂ under i := by
        refine Finset.ssubset_iff_of_subset ?_ |>.mpr ⟨i, ?_, ?_⟩
        · intro j
          simp only [under, Finset.mem_filter]
          exact And.imp_right fun path => path.tail step
        · simp [under, bound, Relation.ReflTransGen.refl]
        · simp only [under, Finset.mem_filter, not_and]
          exact fun _ path => acyclic.acyclic i (.tail' path step)
      exact ih c (acyclic.within c i step)
        (Nat.le_of_lt_succ (Nat.lt_of_lt_of_le (Finset.card_lt_card fewer) few))
  exact ends a.size i bound ((Finset.card_filter_le ..).trans (by simp))

theorem WellLinked.isAcyclic (linked : a.WellLinked) : a.IsAcyclic where
  within c p child := lt_size_of_parent? ((linked.agree c p).mp child)
  acyclic := linked.acyclic

/-- The written form of a token tells its kind and its value, and the external form of a node tells
the tree below it, in any two arenas. -/
theorem nodeRecord_faithful :
    (∀ t u : Token, t.text = u.text ↔ t.kind = u.kind ∧ t.value = u.value) ∧
    ∀ (a b : Arena) (i j : NodeId), a.IsAcyclic → b.IsAcyclic → i < a.size → j < b.size →
      ∃ s t, (∀ s', a.Spells i s' ↔ s' = s) ∧ (∀ t', b.Spells j t' ↔ t' = t) ∧
        (a.nodeRecord i = b.nodeRecord j ↔ s = t) := by
  refine ⟨fun t u => Token.text_inj.trans Token.unplaced_inj, ?_⟩
  intro a b i j acyclic acyclic' bound bound'
  have ends := acyclic.endsWithin bound
  have ends' := acyclic'.endsWithin bound'
  obtain ⟨s, left⟩ := ends.exists_spells
  obtain ⟨t, right⟩ := ends'.exists_spells
  refine ⟨s, t, fun s' => ⟨(·.unique left), (· ▸ left)⟩, fun t' => ⟨(·.unique right), (· ▸ right)⟩,
    ?_⟩
  have first := ends.mono (Nat.le_max_left a.size b.size)
  have second := ends'.mono (Nat.le_max_right a.size b.size)
  rw [nodeRecord, nodeRecord, ← ends.recordWithin_eq (Nat.le_max_left a.size b.size),
    ← ends'.recordWithin_eq (Nat.le_max_right a.size b.size)]
  exact first.record_eq_iff second left right

/-- The sum `x + x` again, read behind another name and with its places. -/
def sumBesideName : Arena :=
  let operand (column : Nat) : Node :=
    ⟨.name, some ⟨.var, "x", ⟨⟨1, column⟩, ⟨1, column + 1⟩⟩⟩, some 3, false⟩
  ⟨#[⟨.name, some ⟨.var, "y", ⟨⟨1, 1⟩, ⟨1, 2⟩⟩⟩, none, false⟩, operand 4, operand 8,
    ⟨.binaryOp 1 2, some (.canonical .add ⟨⟨1, 6⟩, ⟨1, 7⟩⟩), none, false⟩], none⟩

theorem wellLinked_sumBesideName : sumBesideName.WellLinked :=
  wellLinked_of_older (by decide) (by decide) (by decide)

/-- What the two arenas have in common is the sum, and not the product over it. -/
theorem nodeRecord_sumUnderProduct : sumUnderProduct.IsAcyclic ∧ sumBesideName.IsAcyclic ∧
    (∃ t, sumUnderProduct.Spells 2 t ∧ sumBesideName.Spells 3 t) ∧
    ∀ t, sumUnderProduct.Spells 4 t → ¬ sumBesideName.Spells 3 t := by
  have acyclic := wellLinked_sumUnderProduct.isAcyclic
  have acyclic' := wellLinked_sumBesideName.isAcyclic
  obtain ⟨s, t, left, right, same⟩ :=
    nodeRecord_faithful.2 _ _ 2 3 acyclic acyclic' (by decide) (by decide)
  obtain ⟨p, t', top, right', differ⟩ :=
    nodeRecord_faithful.2 _ _ 4 3 acyclic acyclic' (by decide) (by decide)
  have one : s = t := same.mp rfl
  have other : p ≠ t' := by
    intro equal
    have texts : Value.record (_ :: ("token", .text "MULTIPLY") :: _) =
        .record (_ :: ("token", .text "ADD") :: _) := differ.mpr equal
    simp at texts
  refine ⟨acyclic, acyclic', ⟨s, (left s).mpr rfl, (right s).mpr one⟩, fun q spells again => ?_⟩
  exact other (((top q).mp spells).symm.trans ((right' q).mp again))

end Arena
end ScriptSyntax
