import ScriptSyntax.Grammar.Parse
import ScriptSyntax.Tree.Regroup

/-! Where things are: tokens in their source, and nodes in their arena. What is done to an arena
takes no notice of either. It commutes with taking the places of tokens out, and with putting the
arena on top of another one, which moves the ids of its nodes up. -/
namespace ScriptSyntax

@[simp] theorem Token.unplaced_mk (k : Kind) (value : String) (span : Span) :
    (Token.mk k value span).unplaced = ⟨k, value, .null⟩ := rfl

@[simp] theorem Token.value_unplaced (t : Token) : t.unplaced.value = t.value := rfl

@[simp] theorem Token.span_unplaced (t : Token) : t.unplaced.span = .null := rfl

@[simp] theorem Token.text_unplaced (t : Token) : t.unplaced.text = t.text := rfl

namespace Shape

variable {α β : Type} (s : Shape α)

@[simp] theorem unplaced_declare (modifiers : List Token) (a : α) (types : List TypeTerm) :
    (declare modifiers a types).unplaced =
      declare (modifiers.map Token.unplaced) a (TypeTerm.unplacedAll types) := rfl

/-- All shapes but declarations are free of tokens. -/
@[simp] theorem unplaced_of_ne {s : Shape α}
    (other : ∀ modifiers a types, s ≠ declare modifiers a types) : s.unplaced = s := by
  cases s <;> first | rfl | exact absurd rfl (other _ _ _)

theorem unplaced_of_leaf {s : Shape α} (leaf : s.children = []) : s.unplaced = s := by
  cases s <;> first | rfl | simp [children] at leaf

@[simp] theorem children_unplaced : s.unplaced.children = s.children := by
  cases s <;> rfl

theorem map_unplaced (f : α → β) : s.unplaced.map f = (s.map f).unplaced := by
  cases s <;> rfl

/-- The shape without the places of its tokens, where `o` nodes come before those that it names. -/
def lifted (o : Nat) (s : Shape NodeId) : Shape NodeId := (s.map (o + ·)).unplaced

variable (o : Nat) (s : Shape NodeId)

@[simp] theorem lifted_ite {c : Prop} [Decidable c] (t : Shape NodeId) :
    (if c then s else t).lifted o = if c then s.lifted o else t.lifted o :=
  apply_ite (lifted o) c s t

theorem lifted_zero : s.lifted 0 = s.unplaced := by
  have same : (fun i : NodeId => 0 + i) = fun i => i := funext Nat.zero_add
  rw [lifted, same, map_self]

@[simp] theorem children_lifted : (s.lifted o).children = s.children.map (o + ·) := by
  rw [lifted, children_unplaced, children_map]

@[simp] theorem tag_lifted : (s.lifted o).tag = s.tag := by
  cases s <;> rfl

@[simp] theorem left?_lifted : (s.lifted o).left? = s.left?.map (o + ·) := by
  cases s <;> rfl

@[simp] theorem right?_lifted : (s.lifted o).right? = s.right?.map (o + ·) := by
  cases s <;> rfl

@[simp] theorem withLeft_lifted (i : NodeId) :
    (s.lifted o).withLeft (o + i) = (s.withLeft i).lifted o := by
  cases s <;> rfl

@[simp] theorem withRight_lifted (i : NodeId) :
    (s.lifted o).withRight (o + i) = (s.withRight i).lifted o := by
  cases s <;> rfl

@[simp] theorem replace_lifted (old new : NodeId) :
    (s.lifted o).replace (o + old) (o + new) = (s.replace old new).lifted o := by
  simp only [replace, lifted, map_unplaced, map_map, Nat.add_left_cancel_iff]
  congr 2
  funext i
  split <;> rfl

@[simp] theorem lifted_eq_name : s.lifted o = .name ↔ s = .name := by
  cases s <;> simp [lifted, map, unplaced]

@[simp] theorem isMember_lifted : (s.lifted o).isMember = s.isMember := by
  cases s with
  | declare modifiers name types => cases types <;> rfl
  | _ => rfl

end Shape

def Node.lifted (o : Nat) (n : Node) : Node where
  shape := n.shape.lifted o
  token := n.token.map Token.unplaced
  parent := n.parent.map (o + ·)
  frozen := n.frozen

@[simp] theorem Node.profile_lifted (o : Nat) (n : Node) : (n.lifted o).profile = n.profile := by
  simp [profile, lifted]

theorem Node.lifted_zero (n : Node) : n.lifted 0 = n.unplaced := by
  simp [lifted, unplaced, Shape.lifted_zero]

namespace Arena

/-- The arena with its nodes after those of `b`, and without the places of its tokens. -/
def atop (a b : Arena) : Arena :=
  ⟨b.nodes ++ a.nodes.map (Node.lifted b.size), a.root.map (b.size + ·)⟩

@[simp] theorem size_empty : empty.size = 0 := rfl

theorem atop_empty (a : Arena) : a.atop empty = a.unplaced := by
  simp [atop, unplaced, empty, size, Node.lifted_zero]

variable (a b : Arena) (i : NodeId)

@[simp] theorem size_atop : (a.atop b).size = b.size + a.size := by
  simp [atop, size]

@[simp] theorem node?_atop :
    (a.atop b).node? (b.size + i) = (a.node? i).map (Node.lifted b.size) := by
  simp only [atop, node?, size]
  rw [Array.getElem?_append_right (Nat.le_add_right ..), Nat.add_sub_cancel_left,
    Array.getElem?_map]

/-- The nodes below stay. -/
theorem node?_atop_of_lt {i : NodeId} (below : i < b.size) : (a.atop b).node? i = b.node? i := by
  exact Array.getElem?_append_left below

@[simp] theorem shape?_atop :
    (a.atop b).shape? (b.size + i) = (a.shape? i).map (Shape.lifted b.size) := by
  simp [shape?, Function.comp_def, Node.lifted]

@[simp] theorem parent?_atop :
    (a.atop b).parent? (b.size + i) = (a.parent? i).map (b.size + ·) := by
  cases h : a.node? i <;> simp [parent?, h, Node.lifted]

@[simp] theorem isFrozen_atop : (a.atop b).isFrozen (b.size + i) = a.isFrozen i := by
  cases h : a.node? i <;> simp [isFrozen, h, Node.lifted]

@[simp] theorem left?_atop : (a.atop b).left? (b.size + i) = (a.left? i).map (b.size + ·) := by
  cases h : a.shape? i <;> simp [left?, h]

@[simp] theorem right?_atop : (a.atop b).right? (b.size + i) = (a.right? i).map (b.size + ·) := by
  cases h : a.shape? i <;> simp [right?, h]

/-- A change to one node commutes with lifting if it does so on the node. -/
theorem update_atop {f g : Node → Node} (same : ∀ n, g (n.lifted b.size) = (f n).lifted b.size) :
    (a.atop b).update (b.size + i) g = (a.update i f).atop b := by
  have nodes : (a.atop b).nodes.modify (b.size + i) g = ((a.update i f).atop b).nodes := by
    apply Array.ext_getElem?
    intro j
    rw [Array.getElem?_modify]
    by_cases below : j < b.size
    · rw [if_neg (by omega)]
      exact (node?_atop_of_lt a b below).trans (node?_atop_of_lt (a.update i f) b below).symm
    · obtain ⟨k, rfl⟩ := Nat.exists_eq_add_of_le (Nat.le_of_not_lt below)
      have before : (a.atop b).nodes[b.size + k]? = _ := a.node?_atop b k
      have after : ((a.update i f).atop b).nodes[b.size + k]? = _ := (a.update i f).node?_atop b k
      rw [before, after, node?_update]
      by_cases here : i = k <;> simp [here, Function.comp_def, same]
  rw [update, nodes]
  rfl

@[simp] theorem setParent_atop (parent : Option NodeId) :
    (a.atop b).setParent (b.size + i) (parent.map (b.size + ·)) =
      (a.setParent i parent).atop b :=
  a.update_atop b i fun _ => rfl

@[simp] theorem setParent_atop_none :
    (a.atop b).setParent (b.size + i) none = (a.setParent i none).atop b :=
  a.setParent_atop b i none

@[simp] theorem setParent_atop_some (parent : NodeId) :
    (a.atop b).setParent (b.size + i) (some (b.size + parent)) =
      (a.setParent i (some parent)).atop b :=
  a.setParent_atop b i (some parent)

@[simp] theorem freeze_atop : (a.atop b).freeze (b.size + i) = (a.freeze i).atop b :=
  a.update_atop b i fun _ => rfl

@[simp] theorem detach_atop : (a.atop b).detach (b.size + i) = (a.detach i).atop b :=
  a.setParent_atop_none b i

@[simp] theorem setShape_atop (shape : Shape NodeId) :
    (a.atop b).setShape (b.size + i) (shape.lifted b.size) = (a.setShape i shape).atop b :=
  a.update_atop b i fun _ => rfl

@[simp] theorem setRoot_atop : (a.atop b).setRoot (b.size + i) = (a.setRoot i).atop b := by
  simp only [setRoot, setParent_atop_none]
  rfl

theorem push_atop (n : Node) : (a.atop b).push (n.lifted b.size) = (a.push n).atop b := by
  simp [push, atop]

@[simp] theorem add_atop (shape : Shape NodeId) (token : Option Token) :
    (a.atop b).add (shape.lifted b.size) (token.map Token.unplaced) =
      (b.size + (a.add shape token).1, (a.add shape token).2.atop b) := by
  have adopted (parent : NodeId) :
      shape.children.foldl (fun a child => a.setParent (b.size + child) (some (b.size + parent)))
          (a.atop b) =
        (shape.children.foldl (fun a child => a.setParent child (some parent)) a).atop b :=
    List.foldl_hom (atop · b) fun a child => a.setParent_atop_some b child parent
  simp only [add, size_atop, Shape.children_lifted, List.foldl_map, adopted, ← push_atop]
  rfl

@[simp] theorem setLeft_atop (child : NodeId) :
    (a.atop b).setLeft (b.size + i) (b.size + child) = (a.setLeft i child).atop b := by
  unfold setLeft
  cases h : a.shape? i with
  | none => simp [h]
  | some s =>
    simp only [shape?_atop, h, Option.map_some, Shape.left?_lifted, Option.isSome_map,
      Shape.withLeft_lifted, setShape_atop, setParent_atop_some]
    split <;> rfl

@[simp] theorem setRight_atop (child : NodeId) :
    (a.atop b).setRight (b.size + i) (b.size + child) = (a.setRight i child).atop b := by
  unfold setRight
  cases h : a.shape? i with
  | none => simp [h]
  | some s =>
    simp only [shape?_atop, h, Option.map_some, Shape.right?_lifted, Option.isSome_map,
      Shape.withRight_lifted, setShape_atop, setParent_atop_some]
    split <;> rfl

@[simp] theorem replaceChild_atop (old new : NodeId) :
    (a.atop b).replaceChild (b.size + i) (b.size + old) (b.size + new) =
      ((a.replaceChild i old new).1, (a.replaceChild i old new).2.atop b) := by
  rw [replaceChild_eq, replaceChild_eq]
  cases h : a.shape? i with
  | none => simp [h]
  | some s =>
    have held : b.size + old ∈ s.children.map (b.size + ·) ↔ old ∈ s.children := by simp
    simp only [shape?_atop, h, Option.map_some, Shape.children_lifted, held,
      Shape.replace_lifted, setShape_atop, setParent_atop_some]
    split <;> rfl

@[simp] theorem hang_atop (parent : Option NodeId) (old new : NodeId) :
    (a.atop b).hang (parent.map (b.size + ·)) (b.size + old) (b.size + new) =
      (a.hang parent old new).atop b := by
  cases parent with
  | some p => simp [hang]
  | none =>
    have root : (a.atop b).root = some (b.size + old) ↔ a.root = some old := by simp [atop]
    simp only [hang, Option.map_none, root, setRoot_atop, detach_atop]
    split <;> rfl

@[simp] theorem rank?_atop : (a.atop b).rank? (b.size + i) = a.rank? i := by
  unfold rank?
  rw [node?_atop]
  cases a.node? i with
  | none => rfl
  | some n =>
    obtain ⟨shape, token, parent, frozen⟩ := n
    cases shape <;> cases token <;> rfl

@[simp] theorem openRank?_atop : (a.atop b).openRank? (b.size + i) = a.openRank? i := by
  simp [openRank?]

/-- An operator and its rank, where `o` nodes come first. -/
def liftedLink (o : Nat) (op : NodeId × Nat) : NodeId × Nat := (o + op.1, op.2)

theorem unchain_atop (depth : Nat) (chain : List (NodeId × Nat)) :
    (a.atop b).unchain depth (b.size + i) (chain.map (liftedLink b.size)) =
      ((a.unchain depth i chain).1.map (liftedLink b.size),
        b.size + (a.unchain depth i chain).2) := by
  induction depth generalizing i chain with
  | zero => rfl
  | succ depth ih =>
    simp only [unchain, openRank?_atop, left?_atop]
    cases a.openRank? i with
    | none => rfl
    | some rank =>
      cases a.left? i with
      | none => rfl
      | some left => exact ih left ((i, rank) :: chain)

@[simp] theorem label_atop : (a.atop b).label (b.size + i) = a.label i := by
  unfold label
  rw [node?_atop]
  cases a.node? i with
  | none => rfl
  | some n => cases h : n.token <;> simp [Node.lifted, h]

end Arena

namespace Grouping

def atop (g : Grouping) (b : Arena) : Grouping where
  arena := g.arena.atop b
  top := b.size + g.top
  spine := g.spine.map (Arena.liftedLink b.size)
  rotations := g.rotations

theorem insert_atop (g : Grouping) (b : Arena) (op : NodeId × Nat) :
    (g.atop b).insert (Arena.liftedLink b.size op) = (g.insert op).atop b := by
  have looser : (g.atop b).spine.dropWhile (fun held => held.2 ≤ (Arena.liftedLink b.size op).2) =
      (g.spine.dropWhile fun held => held.2 ≤ op.2).map (Arena.liftedLink b.size) :=
    List.dropWhile_map ..
  unfold insert
  rw [looser]
  cases g.spine.dropWhile fun held => held.2 ≤ op.2 with
  | nil => simp [atop, Arena.liftedLink]
  | cons held above =>
    simp only [List.map_cons, atop, Arena.liftedLink, Arena.right?_atop]
    cases g.arena.right? held.1 <;> simp [Arena.liftedLink]

theorem foldl_insert_atop (g : Grouping) (b : Arena) (ops : List (NodeId × Nat)) :
    (ops.map (Arena.liftedLink b.size)).foldl insert (g.atop b) = (ops.foldl insert g).atop b := by
  rw [List.foldl_map]
  exact List.foldl_hom (atop · b) fun g op => insert_atop g b op

end Grouping

namespace Arena

/-- The chain below `root` has to end before the nodes of its arena do. -/
theorem regroup_atop {a b : Arena} {root : NodeId}
    (ends : ∀ left, a.left? root = some left → ∀ chain,
      a.unchain (b.size + a.size) left chain = a.unchain a.size left chain) :
    (a.atop b).regroup (b.size + root) =
      (b.size + (a.regroup root).1, (a.regroup root).2.1.atop b, (a.regroup root).2.2) := by
  unfold regroup
  simp only [rank?_atop, left?_atop]
  cases a.rank? root with
  | none => rfl
  | some rank =>
    cases left : a.left? root with
    | none => rfl
    | some below =>
      have chained := a.unchain_atop b below (b.size + a.size) [(root, rank)]
      rw [ends below left] at chained
      simp only [List.map_cons, List.map_nil, liftedLink] at chained
      simp only [Option.map_some, size_atop, chained, parent?_atop]
      generalize a.unchain a.size below [(root, rank)] = parts
      obtain ⟨chain, base⟩ := parts
      have grouped : (chain.map (liftedLink b.size)).foldl Grouping.insert
            ⟨a.atop b, b.size + base, [], []⟩ =
          (chain.foldl Grouping.insert ⟨a, base, [], []⟩).atop b :=
        Grouping.foldl_insert_atop ⟨a, base, [], []⟩ b chain
      simp only [grouped, Grouping.atop, hang_atop, Nat.add_left_cancel_iff]
      split <;> rfl

/-! Without an arena below there are only the places of tokens. -/

variable (a : Arena) (i : NodeId)

@[simp] theorem node?_unplaced : a.unplaced.node? i = (a.node? i).map Node.unplaced := by
  simp [unplaced, node?]

@[simp] theorem size_unplaced : a.unplaced.size = a.size := by
  simp [unplaced, size]

theorem setRoot_unplaced : a.unplaced.setRoot i = (a.setRoot i).unplaced := by
  simpa [atop_empty] using a.setRoot_atop empty i

theorem freeze_unplaced : a.unplaced.freeze i = (a.freeze i).unplaced := by
  simpa [atop_empty] using a.freeze_atop empty i

theorem add_unplaced (shape : Shape NodeId) (token : Option Token) :
    a.unplaced.add shape.unplaced (token.map Token.unplaced) =
      ((a.add shape token).1, (a.add shape token).2.unplaced) := by
  simpa [atop_empty, Shape.lifted_zero] using a.add_atop empty shape token

theorem regroup_unplaced (root : NodeId) :
    a.unplaced.regroup root =
      ((a.regroup root).1, (a.regroup root).2.1.unplaced, (a.regroup root).2.2) := by
  have ends (left : NodeId) (chain : List (NodeId × Nat)) :
      a.unchain (empty.size + a.size) left chain = a.unchain a.size left chain := by
    rw [size_empty, Nat.zero_add]
  simpa [atop_empty] using regroup_atop fun left (_ : a.left? root = _) => ends left

end Arena
end ScriptSyntax
