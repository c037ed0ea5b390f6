import ScriptSyntax.Tree.Regroup

/-! The operations of an arena, refused where they would touch an id that names no node. -/
namespace ScriptSyntax.Arena

/-- The result of an operation that touches `ids`. -/
def touching {α : Type} (a : Arena) (ids : List NodeId) (result : α) : Option α :=
  if ids.all (· < a.size) then some result else none

def add? (a : Arena) (shape : Shape NodeId) (token : Option Token) : Option (NodeId × Arena) :=
  a.touching shape.children (a.add shape token)

def setRoot? (a : Arena) (id : NodeId) : Option Arena := a.touching [id] (a.setRoot id)

def detach? (a : Arena) (id : NodeId) : Option Arena := a.touching [id] (a.detach id)

def freeze? (a : Arena) (id : NodeId) : Option Arena := a.touching [id] (a.freeze id)

def unfreeze? (a : Arena) (id : NodeId) : Option Arena := a.touching [id] (a.unfreeze id)

/-- Only an operator takes the child, so only then is the child touched. -/
def setLeft? (a : Arena) (id child : NodeId) : Option Arena :=
  a.touching (id :: if (a.left? id).isSome then [child] else []) (a.setLeft id child)

def setRight? (a : Arena) (id child : NodeId) : Option Arena :=
  a.touching (id :: if (a.right? id).isSome then [child] else []) (a.setRight id child)

/-- The new child is touched only where there is a slot for it. -/
def replaceChild? (a : Arena) (parent old new : NodeId) : Option (Bool × Arena) :=
  a.touching (parent :: if old ∈ a.children parent then [new] else [])
    (a.replaceChild parent old new)

def supplant? (a : Arena) (old new : NodeId) : Option Arena :=
  match a.parent? old with
  | some p => (a.replaceChild? p old new).map (·.2)
  | none => a.touching [old, new] (a.supplant old new)

def regroup? (a : Arena) (root : NodeId) : Option (NodeId × Arena) :=
  a.touching [root] ((a.regroup root).1, (a.regroup root).2.1)

end ScriptSyntax.Arena
