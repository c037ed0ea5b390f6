import ScriptSyntax.Token.Kind
import ScriptSyntax.Tree.Arena

/-! Grouping of operators by precedence. Operators are first chained to the left in the order they
are read, each with all before it as its left operand. Regrouping takes the chain apart from the
top and inserts its operators again, the first read first, into a tree that is grouped by rank at
every moment. The right spine of that tree is kept from its lowest operator up; the ranks grow
tighter downward. An operator takes the place, and as its left operand the tree, below the lowest
operator of the spine that binds looser. Finished expressions are operands. -/
namespace ScriptSyntax

namespace Arena

/-- The rank of a binary or ternary operator, by its token. -/
def rank? (a : Arena) (id : NodeId) : Option Nat :=
  match a.node? id with
  | some ⟨.binaryOp .., some t, _, _⟩ | some ⟨.ternaryOp .., some t, _, _⟩ => t.kind.precedence
  | _ => none

/-- The rank of an operator that is no finished expression. -/
def openRank? (a : Arena) (id : NodeId) : Option Nat :=
  if a.isFrozen id then none else a.rank? id

/-- Goes down the left operands from `id` while they are open operators, which are put before
`chain` with their ranks, and gives the first operand that is none. -/
def unchain (a : Arena) : Nat → NodeId → List (NodeId × Nat) → List (NodeId × Nat) × NodeId
  | 0, id, chain => (chain, id)
  | depth + 1, id, chain =>
    match a.openRank? id, a.left? id with
    | some rank, some left => a.unchain depth left ((id, rank) :: chain)
    | _, _ => (chain, id)

/-- How a node is named in the record of a rotation. -/
def label (a : Arena) (id : NodeId) : String :=
  match a.node? id with
  | some n => n.token.elim n.shape.tag Token.text
  | none => ""

end Arena

/-- An operator that went below a looser one. -/
structure Rotation where
  outer : String
  inner : String
deriving DecidableEq

/-- A tree under construction from the operators of a chain. -/
structure Grouping where
  arena : Arena
  top : NodeId
  /-- The operators on the way from the lowest right operand up, with their ranks. -/
  spine : List (NodeId × Nat)
  /-- The rotations so far, the last one first. -/
  rotations : List Rotation

namespace Grouping

def insert (g : Grouping) (op : NodeId × Nat) : Grouping :=
  match g.spine.dropWhile fun held => held.2 ≤ op.2 with
  | [] => { g with arena := g.arena.setLeft op.1 g.top, top := op.1, spine := [op] }
  | (holder, rank) :: above =>
    let spine := op :: (holder, rank) :: above
    match g.arena.right? holder with
    | none => { g with spine }
    | some operand =>
      { g with
        arena := (g.arena.setLeft op.1 operand).setRight holder op.1
        spine
        rotations := ⟨g.arena.label holder, g.arena.label op.1⟩ :: g.rotations }

end Grouping

namespace Arena

/-- Groups the chain of operators below `root` and gives the id of what takes its place. -/
def regroup (a : Arena) (root : NodeId) : NodeId × Arena × List Rotation :=
  match a.rank? root, a.left? root with
  | some rank, some left =>
    let (chain, base) := a.unchain a.size left [(root, rank)]
    let g := chain.foldl Grouping.insert ⟨a, base, [], []⟩
    let arena := if g.top = root then g.arena else g.arena.hang (a.parent? root) root g.top
    (g.top, arena, g.rotations.reverse)
  | _, _ => (root, a, [])

end Arena
end ScriptSyntax
