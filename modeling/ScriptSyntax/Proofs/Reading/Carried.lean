import ScriptSyntax.Proofs.Grouping.Reference

/-! The tokens that a tree carries, in the order in which they are read. Operators, accesses, calls
and assignments carry their token after their first operand, all other nodes before their children.
Grouping does not change the order. -/
namespace ScriptSyntax

attribute [local simp] Shape.children

namespace TypeTerm

mutual

/-- The tokens of a type, the outer ones before the inner ones. -/
@[simp] def tokens : TypeTerm → List Token
  | named token _ => [token]
  | container token _ _ elements => token :: tokensAll elements

@[simp] def tokensAll : List TypeTerm → List Token
  | [] => []
  | t :: ts => tokens t ++ tokensAll ts

end

end TypeTerm

/-- Whether the token of a node stands after its first child. -/
@[simp] def Shape.isInfix {α : Type} : Shape α → Bool
  | assignment .. | binaryOp .. | ternaryOp .. | edge .. | directedEdge .. | index .. | slice ..
  | get .. | call .. | unaryOp _ .trailing => true
  | _ => false

namespace Tree

/-- The tokens of a node, given those of its children. A declaration has modifiers before its name
and types after it. A conditional and its first branch carry the same keyword, which is read
once. -/
@[simp] def spell (shape : Shape Tree) (token : Option Token) (parts : List (List Token)) :
    List Token :=
  match shape with
  | .declare modifiers _ types =>
    token.toList ++ modifiers ++ parts.flatten ++ TypeTerm.tokensAll types
  | .conditional (first :: _) _ =>
    token.toList ++ parts.flatten.drop first.token.toList.length
  | shape =>
    if shape.isInfix then parts.headD [] ++ token.toList ++ parts.tail.flatten
    else token.toList ++ parts.flatten

/-- The tokens that the tree carries, in reading order. -/
def reading (t : Tree) : List Token :=
  spell t.shape t.token (t.children.attach.map fun c => c.1.reading)
termination_by sizeOf t
decreasing_by
  have := sizeOf_child c.2
  cases t
  simp at this ⊢
  omega

theorem reading_eq (t : Tree) : t.reading = spell t.shape t.token (t.children.map reading) := by
  rw [reading]
  simp

@[simp] theorem reading_freeze (t : Tree) : t.freeze.reading = t.reading := by
  rw [reading_eq, reading_eq t, shape_freeze, token_freeze, children_freeze]

end Tree

/-- The tokens of an operator and of what it holds but its left operand. -/
def Link.reading (l : Link) : List Token :=
  l.token :: (l.center.toList.flatMap Tree.reading ++ l.right.reading)

namespace Tree

theorem reading_join (l : Link) (left right : Tree) :
    (l.join left right).reading =
      left.reading ++ l.token :: (l.center.toList.flatMap reading ++ right.reading) := by
  rw [reading_eq, Link.children_join]
  cases center : l.center <;> simp [Link.join, Link.shape, center, spell, Shape.isInfix]

theorem reading_stack (base : Tree) (links : List Link) :
    (stack base links).reading = base.reading ++ links.flatMap Link.reading := by
  induction links using List.reverseRecOn with
  | nil => simp
  | append_singleton rest l ih =>
    rw [stack_append_singleton, reading_join, ih]
    simp [Link.reading]

theorem reading_arrange (base : Tree) (links : List Link) :
    (arrange base links).reading = base.reading ++ links.flatMap Link.reading := by
  induction base, links using arrangeInduction with
  | single base => simp
  | split base before top after ahead behind first second =>
    rw [arrange_append base ahead behind, reading_join, first, second]
    simp [Link.reading]

/-- Grouping keeps the reading order. -/
@[simp] theorem reading_grouped (t : Tree) : t.grouped.reading = t.reading := by
  cases unlinked : t.unlink? with
  | none => rw [grouped_of_unlink?_none unlinked]
  | some parts =>
    obtain ⟨left, l⟩ := parts
    rw [grouped_of_unlink? unlinked, reading_arrange, ← reading_stack,
      stack_chain_of_unlink? unlinked]

end Tree

/-- The kind by which a token is written. A dereference is written as a conjunction of bits, a
pointer as a product. -/
def Kind.written : Kind → Kind
  | deref => bAnd
  | point => multiply
  | k => k

def Token.written (t : Token) : Token :=
  { t with kind := t.kind.written }

theorem Token.written_of_kind {t : Token} (own : t.kind.written = t.kind) : t.written = t := by
  rw [written, own]

theorem Token.written_point {t : Token} (star : t.kind = .multiply) :
    Token.written { t with kind := .point } = t := by
  rw [written, Kind.written, ← star]

theorem Token.written_deref {t : Token} (mark : t.kind = .bAnd) :
    Token.written { t with kind := .deref } = t := by
  rw [written, Kind.written, ← mark]

end ScriptSyntax
