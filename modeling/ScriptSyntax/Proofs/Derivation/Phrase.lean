import ScriptSyntax.Grammar.Rule
import ScriptSyntax.Proofs.Forest.Tree

/-! The phrases that a source is made of, and what each of them yields: the values of the rules,
with trees in the place of ids. -/
namespace ScriptSyntax

namespace Yield

@[reducible]
def Result : Yield → Type
  | node => Tree
  | nodes => List Tree
  | pairs => List (Tree × Tree)
  | sections => List (List Tree)
  | branches => List Tree × Option Tree
  | tokens => List Token
  | type => TypeTerm
  | types => List TypeTerm

/-- The value of a rule that made these trees. -/
def ids : (y : Yield) → y.Result → y.Value
  | node, t => t.id
  | nodes, ts => ts.map Tree.id
  | pairs, ps => ps.map fun p => (p.1.id, p.2.id)
  | sections, ss => ss.map (·.map Tree.id)
  | branches, (ts, o) => (ts.map Tree.id, o.map Tree.id)
  | tokens, ts => ts
  | type, t => t
  | types, ts => ts

/-- The trees of a result, in the order in which they were made. -/
def trees : (y : Yield) → y.Result → List Tree
  | node, t => [t]
  | nodes, ts => ts
  | pairs, ps => ps.flatMap fun p => [p.1, p.2]
  | sections, ss => ss.flatten
  | branches, (ts, o) => ts ++ o.toList
  | tokens, _ => []
  | type, _ => []
  | types, _ => []

variable {t : Tree} {ts : List Tree} {ps : List (Tree × Tree)} {ss : List (List Tree)}
  {o : Option Tree}

@[simp] theorem trees_node : trees node t = [t] := rfl

@[simp] theorem trees_nodes : trees nodes ts = ts := rfl

@[simp] theorem trees_pairs : trees pairs ps = ps.flatMap fun p => [p.1, p.2] := rfl

@[simp] theorem trees_sections : trees sections ss = ss.flatten := rfl

@[simp] theorem trees_branches : trees branches (ts, o) = ts ++ o.toList := rfl

@[simp] theorem trees_tokens {ks : List Token} : trees tokens ks = [] := rfl

@[simp] theorem trees_type {s : TypeTerm} : trees type s = [] := rfl

@[simp] theorem trees_types {ss : List TypeTerm} : trees types ss = [] := rfl

end Yield

/-- What is derived. Phrases that end before a token of one of some kinds carry the kinds. -/
inductive Phrase : Yield → Type where
  | statement : Phrase .node
  /-- A statement without the `;` after it. -/
  | plain : Phrase .node
  | statements (stops : List Kind) : Phrase .nodes
  | block (stops : List Kind) : Phrase .node
  | braced : Phrase .node
  | body : Phrase .node
  /-- The body after `else =>`, or nothing. -/
  | otherwise : Phrase .nodes
  | branch : Phrase .node
  | branches : Phrase .branches
  | sections : Phrase .sections
  | cases : Phrase .nodes
  | catches : Phrase .nodes
  | modifiers : Phrase .tokens
  | declaration (typed : Bool) : Phrase .node
  /-- A declaration or an assignment to one. -/
  | binding (stops : List Kind) : Phrase .node
  | expression (stops : List Kind) (assignable : Bool) : Phrase .node
  /-- A name with types after it. -/
  | inline (stops : List Kind) : Phrase .node
  /-- Terms with operators between them. -/
  | chain (stops : List Kind) : Phrase .node
  | term (stops : List Kind) : Phrase .node
  /-- A term with accesses, calls and trailing operators. -/
  | operand : Phrase .node
  /-- An expression in parentheses. -/
  | group : Phrase .node
  | name : Phrase .node
  | property : Phrase .node
  /-- A value after a colon, or nothing. -/
  | step (close : Kind) : Phrase .nodes
  | collection : Phrase .node
  /-- The items of a list after its first one. -/
  | others : Phrase .nodes
  | edges (directed : Bool) : Phrase .nodes
  | entries (named : Bool) : Phrase .pairs
  | key (named : Bool) : Phrase .node
  | item (stops : List Kind) (item : Item) : Phrase .node
  | items (stops : List Kind) (item : Item) : Phrase .nodes
  | funcBody (stops : List Kind) : Phrase .node
  /-- Two lists of names, of which the second may be left out. -/
  | heritage : Phrase .sections
  | members : Phrase .nodes
  | memberBlock : Phrase .node
  | memberBody : Phrase .node
  | instances : Phrase .nodes
  | instanceTerm : Phrase .node
  | type : Phrase .type
  | types : Phrase .types
  | typeList : Phrase .types

end ScriptSyntax
