import ScriptSyntax.Tree.TypeTerm

/-! The variants of a syntax node, with slots for children of any type. The arena fills the slots
with the ids of its nodes. -/
namespace ScriptSyntax

/-- On which side of its operand a unary operator stands. -/
inductive Fixity where
  | leading
  | trailing
deriving DecidableEq

def Fixity.name : Fixity → String
  | .leading => "PREFIX"
  | .trailing => "POSTFIX"

inductive Shape (α : Type) where
  | block (statements : List α)
  | assignment (target value : α) (cast : Bool)
  | declare (modifiers : List Token) (declared : α) (types : List TypeTerm)
  | noOp
  | pass
  | continueStep
  | breakStep
  | returnStep (value : α)
  | deferStep (value : α)
  | name
  | intLiteral
  | realLiteral
  | stringLiteral
  | booleanLiteral
  | nullLiteral
  | unaryOp (operand : α) (fixity : Fixity)
  | binaryOp (left right : α)
  | ternaryOp (left center right : α)
  | index (target place : α)
  | slice (target start stop : α) (step : Option α)
  | get (target property : α) (optional : Bool)
  | call (target : α) (args : List α)
  | func (params : List α) (body : α)
  | classDef (supers interfaces : List α) (body : α)
  | structDef (supers interfaces : List α) (body : α)
  | interfaceDef (supers : List α) (body : α)
  | enumDef (supers interfaces instances : List α) (body : α)
  | conditional (branches : List α) (otherwise : Option α)
  | branch (condition body : α)
  | loop (init conditions steps : List α) (body : α) (otherwise : Option α)
  | switch (subject : α) (cases : List α) (otherwise : Option α)
  /-- The arm without a value is the default one. -/
  | caseArm (value : Option α) (body : α)
  | guarded (body : α) (catches : List α) (otherwise : Option α)
  | catchArm (declaration body : α)
  | arrayList (items : List α)
  | linkedList (items : List α)
  | set (items : List α)
  | objectMap (entries : List (α × α))
  | valueMap (entries : List (α × α))
  | undirectedGraph (nodes edges : List α)
  | directedGraph (nodes edges : List α)
  | edge (left right : α)
  | directedEdge (left right : α) (both : Bool)
  | arrayListRange (start stop : α) (step : Option α)
  | linkedListRange (start stop : α) (step : Option α)
deriving DecidableEq

namespace Shape

variable {α β : Type}

def tag : Shape α → String
  | block .. => "Block"
  | assignment .. => "Assignment"
  | declare .. => "Declare"
  | noOp => "NoOp"
  | pass => "Pass"
  | continueStep => "Continue"
  | breakStep => "Break"
  | returnStep .. => "Return"
  | deferStep .. => "Defer"
  | name => "Var"
  | intLiteral => "IntLiteral"
  | realLiteral => "RealLiteral"
  | stringLiteral => "StringLiteral"
  | booleanLiteral => "BooleanLiteral"
  | nullLiteral => "NullLiteral"
  | unaryOp .. => "UnaryOp"
  | binaryOp .. => "BinaryOp"
  | ternaryOp .. => "TernaryOp"
  | index .. => "Index"
  | slice .. => "Slice"
  | get .. => "Get"
  | call .. => "Call"
  | func .. => "Func"
  | classDef .. => "Class"
  | structDef .. => "Struct"
  | interfaceDef .. => "Interface"
  | enumDef .. => "Enum"
  | conditional .. => "If"
  | branch .. => "IfBlock"
  | loop .. => "Loop"
  | switch .. => "Switch"
  | caseArm .. => "Case"
  | guarded .. => "Try"
  | catchArm .. => "Catch"
  | arrayList .. => "ArrayList"
  | linkedList .. => "LinkedList"
  | set .. => "Set"
  | objectMap .. => "ObjectMap"
  | valueMap .. => "ValueMap"
  | undirectedGraph .. => "UndirectedGraph"
  | directedGraph .. => "DirectedGraph"
  | edge .. => "Edge"
  | directedEdge .. => "DirectedEdge"
  | arrayListRange .. => "ArrayListRange"
  | linkedListRange .. => "LinkedListRange"

/-- The children in the order of their slots. -/
def children : Shape α → List α
  | noOp | pass | continueStep | breakStep | name | intLiteral | realLiteral | stringLiteral
  | booleanLiteral | nullLiteral => []
  | block as | arrayList as | linkedList as | set as => as
  | assignment a b _ | binaryOp a b | index a b | get a b _ | branch a b | catchArm a b
  | edge a b | directedEdge a b _ => [a, b]
  | declare _ a _ | returnStep a | deferStep a | unaryOp a _ => [a]
  | ternaryOp a b c => [a, b, c]
  | slice a b c d => a :: b :: c :: d.toList
  | call a bs => a :: bs
  | func as b | interfaceDef as b => as ++ [b]
  | classDef as bs c | structDef as bs c => as ++ bs ++ [c]
  | enumDef as bs cs d => as ++ bs ++ cs ++ [d]
  | conditional as b => as ++ b.toList
  | loop as bs cs d e => as ++ bs ++ cs ++ d :: e.toList
  | switch a bs c | guarded a bs c => a :: (bs ++ c.toList)
  | caseArm a b => a.toList ++ [b]
  | objectMap ps | valueMap ps => ps.flatMap fun p => [p.1, p.2]
  | undirectedGraph as bs | directedGraph as bs => as ++ bs
  | arrayListRange a b c | linkedListRange a b c => a :: b :: c.toList

/-- The shape with every child replaced by its image. -/
def map (f : α → β) : Shape α → Shape β
  | block as => block (as.map f)
  | assignment a b cast => assignment (f a) (f b) cast
  | declare modifiers a types => declare modifiers (f a) types
  | noOp => noOp
  | pass => pass
  | continueStep => continueStep
  | breakStep => breakStep
  | returnStep a => returnStep (f a)
  | deferStep a => deferStep (f a)
  | name => name
  | intLiteral => intLiteral
  | realLiteral => realLiteral
  | stringLiteral => stringLiteral
  | booleanLiteral => booleanLiteral
  | nullLiteral => nullLiteral
  | unaryOp a fixity => unaryOp (f a) fixity
  | binaryOp a b => binaryOp (f a) (f b)
  | ternaryOp a b c => ternaryOp (f a) (f b) (f c)
  | index a b => index (f a) (f b)
  | slice a b c d => slice (f a) (f b) (f c) (d.map f)
  | get a b optional => get (f a) (f b) optional
  | call a bs => call (f a) (bs.map f)
  | func as b => func (as.map f) (f b)
  | classDef as bs c => classDef (as.map f) (bs.map f) (f c)
  | structDef as bs c => structDef (as.map f) (bs.map f) (f c)
  | interfaceDef as b => interfaceDef (as.map f) (f b)
  | enumDef as bs cs d => enumDef (as.map f) (bs.map f) (cs.map f) (f d)
  | conditional as b => conditional (as.map f) (b.map f)
  | branch a b => branch (f a) (f b)
  | loop as bs cs d e => loop (as.map f) (bs.map f) (cs.map f) (f d) (e.map f)
  | switch a bs c => switch (f a) (bs.map f) (c.map f)
  | caseArm a b => caseArm (a.map f) (f b)
  | guarded a bs c => guarded (f a) (bs.map f) (c.map f)
  | catchArm a b => catchArm (f a) (f b)
  | arrayList as => arrayList (as.map f)
  | linkedList as => linkedList (as.map f)
  | set as => set (as.map f)
  | objectMap ps => objectMap (ps.map fun p => (f p.1, f p.2))
  | valueMap ps => valueMap (ps.map fun p => (f p.1, f p.2))
  | undirectedGraph as bs => undirectedGraph (as.map f) (bs.map f)
  | directedGraph as bs => directedGraph (as.map f) (bs.map f)
  | edge a b => edge (f a) (f b)
  | directedEdge a b both => directedEdge (f a) (f b) both
  | arrayListRange a b c => arrayListRange (f a) (f b) (c.map f)
  | linkedListRange a b c => linkedListRange (f a) (f b) (c.map f)

theorem children_map (f : α → β) (s : Shape α) : (s.map f).children = s.children.map f := by
  cases s <;> simp [map, children, List.map_flatMap, List.flatMap_map, Option.toList_map]

theorem tag_map (f : α → β) (s : Shape α) : (s.map f).tag = s.tag := by
  cases s <;> rfl

theorem map_map {γ : Type} (g : β → γ) (f : α → β) (s : Shape α) :
    (s.map f).map g = s.map fun a => g (f a) := by
  cases s <;> simp [map, Function.comp_def]

theorem map_self (s : Shape α) : s.map (fun a => a) = s := by
  cases s <;> simp [map]

theorem map_congr {f g : α → β} (s : Shape α) (same : ∀ a ∈ s.children, f a = g a) :
    s.map f = s.map g := by
  have optional (o : Option α) (h : ∀ a, o = some a → f a = g a) : o.map f = o.map g :=
    Option.map_congr h
  cases s <;> simp [map, children] at same ⊢ <;> grind

/-- The slots of an entry, the key before the value. -/
def visitPair {m : Type → Type} [Monad m] (f : α → m β) (p : α × α) : m (β × β) :=
  return (← f p.1, ← f p.2)

/-- Visits the slots in their order and fills each with what `f` gives for its content. -/
def visit {m : Type → Type} [Monad m] (f : α → m β) : Shape α → m (Shape β)
  | block as => return block (← as.mapM f)
  | assignment a b cast => return assignment (← f a) (← f b) cast
  | declare modifiers a types => return declare modifiers (← f a) types
  | noOp => return noOp
  | pass => return pass
  | continueStep => return continueStep
  | breakStep => return breakStep
  | returnStep a => return returnStep (← f a)
  | deferStep a => return deferStep (← f a)
  | name => return name
  | intLiteral => return intLiteral
  | realLiteral => return realLiteral
  | stringLiteral => return stringLiteral
  | booleanLiteral => return booleanLiteral
  | nullLiteral => return nullLiteral
  | unaryOp a fixity => return unaryOp (← f a) fixity
  | binaryOp a b => return binaryOp (← f a) (← f b)
  | ternaryOp a b c => return ternaryOp (← f a) (← f b) (← f c)
  | index a b => return index (← f a) (← f b)
  | slice a b c d => return slice (← f a) (← f b) (← f c) (← d.mapM f)
  | get a b optional => return get (← f a) (← f b) optional
  | call a bs => return call (← f a) (← bs.mapM f)
  | func as b => return func (← as.mapM f) (← f b)
  | classDef as bs c => return classDef (← as.mapM f) (← bs.mapM f) (← f c)
  | structDef as bs c => return structDef (← as.mapM f) (← bs.mapM f) (← f c)
  | interfaceDef as b => return interfaceDef (← as.mapM f) (← f b)
  | enumDef as bs cs d => return enumDef (← as.mapM f) (← bs.mapM f) (← cs.mapM f) (← f d)
  | conditional as b => return conditional (← as.mapM f) (← b.mapM f)
  | branch a b => return branch (← f a) (← f b)
  | loop as bs cs d e =>
    return loop (← as.mapM f) (← bs.mapM f) (← cs.mapM f) (← f d) (← e.mapM f)
  | switch a bs c => return switch (← f a) (← bs.mapM f) (← c.mapM f)
  | caseArm a b => return caseArm (← a.mapM f) (← f b)
  | guarded a bs c => return guarded (← f a) (← bs.mapM f) (← c.mapM f)
  | catchArm a b => return catchArm (← f a) (← f b)
  | arrayList as => return arrayList (← as.mapM f)
  | linkedList as => return linkedList (← as.mapM f)
  | set as => return set (← as.mapM f)
  | objectMap ps => return objectMap (← ps.mapM (visitPair f))
  | valueMap ps => return valueMap (← ps.mapM (visitPair f))
  | undirectedGraph as bs => return undirectedGraph (← as.mapM f) (← bs.mapM f)
  | directedGraph as bs => return directedGraph (← as.mapM f) (← bs.mapM f)
  | edge a b => return edge (← f a) (← f b)
  | directedEdge a b both => return directedEdge (← f a) (← f b) both
  | arrayListRange a b c => return arrayListRange (← f a) (← f b) (← c.mapM f)
  | linkedListRange a b c => return linkedListRange (← f a) (← f b) (← c.mapM f)

section Replacing

variable [DecidableEq α] (old new : α)

/-- The shape with `new` in every slot that held `old`. -/
def replace (s : Shape α) : Shape α :=
  s.map fun a => if a = old then new else a

/-- Puts `new` into a slot that holds `old`, and remembers that there was one. -/
def swap (slot : α) : StateM Bool α :=
  modifyGet fun found => if slot = old then (new, true) else (slot, found)

/-- Puts `new` into the slots that hold `old`, one after the other, and tells whether there are
any. -/
def replaceChild (s : Shape α) : Bool × Shape α :=
  let (replaced, found) := ((s.visit (swap old new)).run false).run
  (found, replaced)

theorem run_swap (slot : α) (found : Bool) : ((swap old new slot).run found).run =
    (if slot = old then new else slot, found || decide (slot = old)) := by
  unfold swap
  split <;> simp_all

theorem run_mapM_swap (as : List α) (found : Bool) : ((as.mapM (swap old new)).run found).run =
    (as.map fun a => if a = old then new else a, found || as.any (· = old)) := by
  induction as generalizing found with
  | nil => simp
  | cons a as ih => simp [List.mapM_cons, run_swap, ih, Bool.or_assoc]

theorem run_mapM_swap_pairs (ps : List (α × α)) (found : Bool) :
    ((ps.mapM (visitPair (swap old new))).run found).run =
      (ps.map fun p => (if p.1 = old then new else p.1, if p.2 = old then new else p.2),
        found || ps.any fun p => p.1 = old || p.2 = old) := by
  induction ps generalizing found with
  | nil => simp
  | cons p ps ih => simp [List.mapM_cons, visitPair, run_swap, ih, Bool.or_assoc]

theorem run_mapM_swap_option (a : Option α) (found : Bool) :
    ((a.mapM (swap old new)).run found).run =
      (a.map fun a => if a = old then new else a, found || a.toList.any (· = old)) := by
  cases a <;> simp [run_swap]

theorem run_visit_swap (s : Shape α) (found : Bool) : ((s.visit (swap old new)).run found).run =
    (s.replace old new, found || s.children.any (· = old)) := by
  cases s <;> simp [visit, replace, map, children, run_swap, run_mapM_swap, run_mapM_swap_pairs,
    run_mapM_swap_option, Bool.or_assoc]

theorem replaceChild_eq (s : Shape α) :
    s.replaceChild old new = (decide (old ∈ s.children), s.replace old new) := by
  simp [replaceChild, run_visit_swap, List.any_eq]

end Replacing

/-- The left operand of a binary or ternary operator. -/
def left? : Shape α → Option α
  | binaryOp a _ | ternaryOp a _ _ => some a
  | _ => none

/-- The right operand of a binary or ternary operator. -/
def right? : Shape α → Option α
  | binaryOp _ b | ternaryOp _ _ b => some b
  | _ => none

/-- The operator with another left operand. What is no binary or ternary operator stays. -/
def withLeft (s : Shape α) (a : α) : Shape α :=
  match s with
  | binaryOp _ b => binaryOp a b
  | ternaryOp _ c b => ternaryOp a c b
  | s => s

/-- The operator with another right operand. What is no binary or ternary operator stays. -/
def withRight (s : Shape α) (b : α) : Shape α :=
  match s with
  | binaryOp a _ => binaryOp a b
  | ternaryOp a c _ => ternaryOp a c b
  | s => s

/-- The shape with its own tokens stripped of their places. -/
def unplaced : Shape α → Shape α
  | declare modifiers a types =>
    declare (modifiers.map Token.unplaced) a (TypeTerm.unplacedAll types)
  | s => s

end Shape
end ScriptSyntax
