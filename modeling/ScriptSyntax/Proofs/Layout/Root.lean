import ScriptSyntax.Tree.Regroup

/-! An arena without its root. What is done to nodes takes no notice of the root, so it commutes
with forgetting it. -/
namespace ScriptSyntax

namespace Arena

variable (a : Arena) (i : NodeId)

def unrooted : Arena := { a with root := none }

theorem setLeft_unrooted (child : NodeId) :
    a.unrooted.setLeft i child = (a.setLeft i child).unrooted := by
  have same : a.unrooted.shape? i = a.shape? i := rfl
  rw [setLeft, setLeft, same]
  split
  · rfl
  · split <;> rfl

theorem setRight_unrooted (child : NodeId) :
    a.unrooted.setRight i child = (a.setRight i child).unrooted := by
  have same : a.unrooted.shape? i = a.shape? i := rfl
  rw [setRight, setRight, same]
  split
  · rfl
  · split <;> rfl

theorem hang_unrooted (parent : Option NodeId) (old new : NodeId) :
    a.unrooted.hang parent old new = (a.hang parent old new).unrooted := by
  cases parent with
  | some p =>
    have same : a.unrooted.shape? p = a.shape? p := rfl
    rw [hang, hang, replaceChild, replaceChild, same]
    split
    · rfl
    · dsimp only
      split <;> rfl
  | none =>
    have none : ¬a.unrooted.root = some old := (Option.some_ne_none old).symm
    rw [hang, hang, if_neg none]
    split <;> rfl

theorem add_unrooted (shape : Shape NodeId) (token : Option Token) :
    a.unrooted.add shape token = ((a.add shape token).1, (a.add shape token).2.unrooted) := by
  have adopted (parent : NodeId) :
      shape.children.foldl (fun a child => a.setParent child (some parent)) a.unrooted =
        (shape.children.foldl (fun a child => a.setParent child (some parent)) a).unrooted :=
    List.foldl_hom unrooted fun _ _ => rfl
  simp only [add, adopted]
  rfl

theorem unchain_unrooted (depth : Nat) (chain : List (NodeId × Nat)) :
    a.unrooted.unchain depth i chain = a.unchain depth i chain := by
  induction depth generalizing i chain with
  | zero => rfl
  | succ depth ih =>
    simp only [unchain, ih]
    rfl

end Arena

namespace Grouping

def unrooted (g : Grouping) : Grouping := { g with arena := g.arena.unrooted }

theorem insert_unrooted (g : Grouping) (op : NodeId × Nat) :
    g.unrooted.insert op = (g.insert op).unrooted := by
  have spine : g.unrooted.spine = g.spine := rfl
  unfold insert
  rw [spine]
  cases g.spine.dropWhile fun held => held.2 ≤ op.2 with
  | nil => simp only [unrooted, Arena.setLeft_unrooted]
  | cons held above =>
    have right : g.unrooted.arena.right? held.1 = g.arena.right? held.1 := rfl
    dsimp only
    rw [right]
    cases g.arena.right? held.1 with
    | none => rfl
    | some operand =>
      simp only [unrooted, Arena.setLeft_unrooted, Arena.setRight_unrooted]
      rfl

theorem foldl_insert_unrooted (g : Grouping) (ops : List (NodeId × Nat)) :
    ops.foldl insert g.unrooted = (ops.foldl insert g).unrooted :=
  List.foldl_hom unrooted insert_unrooted

end Grouping

theorem Arena.regroup_unrooted (a : Arena) (i : NodeId) :
    a.unrooted.regroup i =
      ((a.regroup i).1, (a.regroup i).2.1.unrooted, (a.regroup i).2.2) := by
  have rank : a.unrooted.rank? i = a.rank? i := rfl
  have left : a.unrooted.left? i = a.left? i := rfl
  have size : a.unrooted.size = a.size := rfl
  have parent : a.unrooted.parent? i = a.parent? i := rfl
  rw [regroup, regroup, rank, left]
  cases a.rank? i with
  | none => rfl
  | some rank =>
    cases a.left? i with
    | none => rfl
    | some left =>
      have grouped (ops : List (NodeId × Nat)) (base : NodeId) :
          ops.foldl Grouping.insert ⟨a.unrooted, base, [], []⟩ =
            (ops.foldl Grouping.insert ⟨a, base, [], []⟩).unrooted :=
        Grouping.foldl_insert_unrooted ⟨a, base, [], []⟩ ops
      simp only [size, unchain_unrooted, grouped, parent, Grouping.unrooted, hang_unrooted]
      split <;> rfl

end ScriptSyntax
