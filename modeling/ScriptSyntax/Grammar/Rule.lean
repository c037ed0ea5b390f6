import ScriptSyntax.Tree.Arena

/-! The rules of the grammar that refer to each other, and what each of them yields. A repetition
is a rule that refers to itself for what follows its first item. -/
namespace ScriptSyntax

/-- The sorts of result. -/
inductive Yield where
  | node
  | nodes
  | pairs
  | sections
  | branches
  | tokens
  | type
  | types
deriving DecidableEq

@[reducible]
def Yield.Value : Yield → Type
  | node => NodeId
  | nodes => List NodeId
  | pairs => List (NodeId × NodeId)
  | sections => List (List NodeId)
  | branches => List NodeId × Option NodeId
  | tokens => List Token
  | type => TypeTerm
  | types => List TypeTerm

/-- What a list separated by commas is made of. -/
inductive Item where
  | expression (assignable : Bool)
  | name
  | parameter
  | edge (directed : Bool)
deriving DecidableEq

inductive Rule : Yield → Type where
  | statement : Rule .node
  /-- Statements up to a token of one of the kinds. -/
  | statements (stops : List Kind) : Rule .nodes
  | expression (stops : List Kind) (assignable : Bool) : Rule .node
  /-- What follows the chain `left` of operators in an expression. -/
  | weave (left : NodeId) (stops : List Kind) (assignable : Bool) : Rule .node
  | term (stops : List Kind) : Rule .node
  /-- Accesses, calls and trailing operators that apply to `operand`. -/
  | suffix (operand : NodeId) : Rule .node
  | typeTerm : Rule .type
  | typeTerms : Rule .types
  | modifiers : Rule .tokens
  /-- Items up to a token of one of the kinds; a comma may follow the last one. -/
  | items (stops : List Kind) (item : Item) : Rule .nodes
  /-- The entries of a map, whose keys are names or expressions. -/
  | entries (named : Bool) : Rule .pairs
  /-- The sections of a loop header. -/
  | sections : Rule .sections
  /-- The branches of a conditional, the first of them introduced by `keyword`. -/
  | branches (keyword : Token) : Rule .branches
  | cases : Rule .nodes
  | catches : Rule .nodes
  | instances : Rule .nodes
  /-- The statements of the body of a class. -/
  | members : Rule .nodes

end ScriptSyntax
