import ScriptSyntax.Tree.Field

/-! The arena that owns the nodes of one tree. Nodes are added from the leaves up, and adding a
node makes it the parent of its children. What rewires a slot sets the parent of the node that
moves into it. Nothing happens at an id that names no node. -/
namespace ScriptSyntax

/-- A node's place in the order in which the nodes of its arena were added. -/
abbrev NodeId := Nat

structure Node where
  shape : Shape NodeId
  /-- The token the node came from, none for what only structures others. -/
  token : Option Token
  parent : Option NodeId
  /-- Whether the node is a finished expression, which regrouping takes for an operand. -/
  frozen : Bool
deriving DecidableEq

def Node.unplaced (n : Node) : Node :=
  { n with shape := n.shape.unplaced, token := n.token.map Token.unplaced }

structure Arena where
  nodes : Array Node
  root : Option NodeId
deriving DecidableEq

namespace Arena

def empty : Arena := ⟨#[], none⟩

def size (a : Arena) : Nat := a.nodes.size

def node? (a : Arena) (id : NodeId) : Option Node := a.nodes[id]?

def shape? (a : Arena) (id : NodeId) : Option (Shape NodeId) := (a.node? id).map (·.shape)

def token? (a : Arena) (id : NodeId) : Option Token := (a.node? id).bind (·.token)

def parent? (a : Arena) (id : NodeId) : Option NodeId := (a.node? id).bind (·.parent)

def isFrozen (a : Arena) (id : NodeId) : Bool := (a.node? id).any (·.frozen)

def children (a : Arena) (id : NodeId) : List NodeId := (a.shape? id).elim [] Shape.children

def left? (a : Arena) (id : NodeId) : Option NodeId := (a.shape? id).bind Shape.left?

def right? (a : Arena) (id : NodeId) : Option NodeId := (a.shape? id).bind Shape.right?

def update (a : Arena) (id : NodeId) (f : Node → Node) : Arena :=
  { a with nodes := a.nodes.modify id f }

def setParent (a : Arena) (id : NodeId) (parent : Option NodeId) : Arena :=
  a.update id fun n => { n with parent }

def setShape (a : Arena) (id : NodeId) (shape : Shape NodeId) : Arena :=
  a.update id fun n => { n with shape }

def push (a : Arena) (n : Node) : Arena :=
  { a with nodes := a.nodes.push n }

@[simp] theorem size_update (a : Arena) (id : NodeId) (f : Node → Node) :
    (a.update id f).size = a.size := by
  simp [update, size]

theorem node?_update (a : Arena) (id : NodeId) (f : Node → Node) (i : NodeId) :
    (a.update id f).node? i = if id = i then (a.node? i).map f else a.node? i := by
  simp [update, node?, Array.getElem?_modify]

@[simp] theorem size_push (a : Arena) (n : Node) : (a.push n).size = a.size + 1 := by
  simp [push, size]

theorem node?_push (a : Arena) (n : Node) (i : NodeId) :
    (a.push n).node? i = if i = a.size then some n else a.node? i :=
  Array.getElem?_push

/-- Adds a node and gives its id. -/
def add (a : Arena) (shape : Shape NodeId) (token : Option Token) : NodeId × Arena :=
  let id := a.size
  let adopted := shape.children.foldl (fun a child => a.setParent child (some id)) a
  (id, adopted.push ⟨shape, token, none, false⟩)

def setRoot (a : Arena) (id : NodeId) : Arena :=
  { a.setParent id none with root := some id }

def detach (a : Arena) (id : NodeId) : Arena := a.setParent id none

def freeze (a : Arena) (id : NodeId) : Arena := a.update id fun n => { n with frozen := true }

def unfreeze (a : Arena) (id : NodeId) : Arena := a.update id fun n => { n with frozen := false }

/-- Gives a binary or ternary operator another left operand. -/
def setLeft (a : Arena) (id child : NodeId) : Arena :=
  match a.shape? id with
  | none => a
  | some s =>
    if s.left?.isSome then (a.setShape id (s.withLeft child)).setParent child (some id) else a

/-- Gives a binary or ternary operator another right operand. -/
def setRight (a : Arena) (id child : NodeId) : Arena :=
  match a.shape? id with
  | none => a
  | some s =>
    if s.right?.isSome then (a.setShape id (s.withRight child)).setParent child (some id) else a

/-- Puts `new` into the slots of `parent` that hold `old`, and tells whether there are any. -/
def replaceChild (a : Arena) (parent old new : NodeId) : Bool × Arena :=
  match a.shape? parent with
  | none => (false, a)
  | some s =>
    let (replaced, s) := s.replaceChild old new
    if replaced then (true, (a.setShape parent s).setParent new (some parent)) else (false, a)

theorem replaceChild_eq (a : Arena) (parent old new : NodeId) : a.replaceChild parent old new =
    match a.shape? parent with
    | none => (false, a)
    | some s =>
      if old ∈ s.children then
        (true, (a.setShape parent (s.replace old new)).setParent new (some parent))
      else (false, a) := by
  simp only [replaceChild, Shape.replaceChild_eq, decide_eq_true_eq]

/-- Hangs `new` where `old` hung: under `parent`, at the root, or nowhere. -/
def hang (a : Arena) (parent : Option NodeId) (old new : NodeId) : Arena :=
  match parent with
  | some p => (a.replaceChild p old new).2
  | none => if a.root = some old then a.setRoot new else a.detach new

/-- Hangs `new` where `old` hangs. -/
def supplant (a : Arena) (old new : NodeId) : Arena := a.hang (a.parent? old) old new

/-- Whether every child names its holder as its parent. -/
def isLinked (a : Arena) : Bool :=
  (List.range a.size).all fun id => (a.children id).all fun c => a.parent? c = some id

def unplaced (a : Arena) : Arena := { a with nodes := a.nodes.map Node.unplaced }

/-- The external form of the tree below a node. No path in a tree is longer than its arena, which
bounds the descent. -/
def recordWithin (a : Arena) : Nat → NodeId → Value
  | 0, _ => .null
  | depth + 1, id =>
    match a.node? id with
    | none => .null
    | some n => n.shape.record (a.recordWithin depth) n.token

def nodeRecord (a : Arena) (id : NodeId) : Value := a.recordWithin a.size id

/-- The external form of the whole tree, null before there is a root. -/
def record (a : Arena) : Value := a.root.elim .null a.nodeRecord

end Arena
end ScriptSyntax
