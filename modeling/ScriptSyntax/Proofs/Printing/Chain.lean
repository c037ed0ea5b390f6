import ScriptSyntax.Proofs.Grouping.Reference
import ScriptSyntax.Proofs.Printing.Expr

/-! Binary operators that are printed without parentheses between them. They are read as one chain,
and grouping the chain by precedence gives back the expression. -/
namespace ScriptSyntax

open ScriptSyntax.Tree (arrange arrange_nil arrange_append)

/-- A binary operator of a chain with its right operand. -/
structure Joint where
  op : Kind
  joins : op.isBinaryOperator = true
  right : Expr

namespace Expr

open Lexeme

/-- The first operand of the chain that the expression is printed as, and the operators after it. -/
def spread : Expr → Expr × List Joint
  | binary op joins left right =>
    let first := if left.bareLeft op then left.spread else (left, [])
    let second := if right.bareRight op then right.spread else (right, [])
    (first.1, first.2 ++ ⟨op, joins, second.1⟩ :: second.2)
  | e => (e, [])

/-- The tokens of the expression as an operand of a chain. -/
def operand (style : Style) (e : Expr) : List Lexeme := enclose e.isAtom (e.lexemes style)

end Expr

namespace Joint

open Lexeme

def lexemes (style : Style) (j : Joint) : List Lexeme := sign j.op :: j.right.operand style

/-- The link is that of the operator and its right operand in a tree. -/
structure Shows (j : Joint) (l : Link) : Prop where
  own : l.token.lexeme = ⟨j.op, j.op.spelling⟩
  binary : l.center = none
  right : j.right.Shows l.right

theorem Shows.rank {j : Joint} {l : Link} (shown : j.Shows l) : l.rank = j.op.rank := by
  have kind : l.token.kind = j.op := congrArg Lexeme.kind shown.own
  rw [Kind.rank, ← kind, l.ranked]
  rfl

end Joint

namespace Expr

open Lexeme

variable {style : Style} {e left right : Expr} {op : Kind}

/-- Whether the expression is printed as a chain when it is printed bare. -/
def isChain : Expr → Bool
  | atom _ | binary .. => true
  | _ => false

theorem isAtom_of_bareLeft (enclosed : e.bareLeft op = false) : e.isAtom = false := by
  cases e <;> first | rfl | contradiction

theorem isAtom_of_bareRight (enclosed : e.bareRight op = false) : e.isAtom = false := by
  cases e <;> first | rfl | contradiction

theorem isChain_of_bareLeft (bare : e.bareLeft op = true) : e.isChain = true := by
  cases e <;> first | rfl | contradiction

theorem isChain_of_bareRight (bare : e.bareRight op = true) : e.isChain = true := by
  cases e <;> first | rfl | contradiction

/-- An operand of an operator is part of the chain or one operand of it. -/
theorem lexemes_side (bare : Bool) (enclosed : bare = false → e.isAtom = false)
    (chain : bare = true →
      e.lexemes style = e.spread.1.operand style ++ e.spread.2.flatMap (Joint.lexemes style)) :
    enclose bare (e.lexemes style) = (if bare then e.spread else (e, [])).1.operand style ++
      (if bare then e.spread else (e, [])).2.flatMap (Joint.lexemes style) := by
  cases bare with
  | true => exact chain rfl
  | false => simp [operand, enclose, enclosed rfl]

theorem lexemes_spread (style : Style) (e : Expr) (chain : e.isChain = true) :
    e.lexemes style = e.spread.1.operand style ++ e.spread.2.flatMap (Joint.lexemes style) := by
  induction e using ofParts with
  | step e ih =>
    cases e with
    | atom a => simp [lexemes, spread, operand, isAtom, enclose]
    | binary op joins left right =>
      have first := lexemes_side (left.bareLeft op) isAtom_of_bareLeft fun bare =>
        ih left (.head _) (isChain_of_bareLeft bare)
      have second := lexemes_side (right.bareRight op) isAtom_of_bareRight fun bare =>
        ih right (.tail _ (.head _)) (isChain_of_bareRight bare)
      simp only [lexemes, first, second, spread, List.flatMap_append, List.flatMap_cons,
        Joint.lexemes, List.append_assoc, List.cons_append]
    | _ => contradiction

/-- The rank of the operator on top of a chain. -/
def topRank : Expr → Nat
  | binary op _ _ _ => op.rank
  | _ => 0

theorem rank_le_of_bareLeft (inner : ∀ j ∈ left.spread.2, j.op.rank ≤ left.topRank) :
    ∀ j ∈ (if left.bareLeft op then left.spread else (left, [])).2, j.op.rank ≤ op.rank := by
  intro j member
  split at member
  · next bare =>
    cases left with
    | binary inner _ _ _ => exact Nat.le_trans (inner j member) (of_decide_eq_true bare)
    | _ => contradiction
  · contradiction

theorem rank_lt_of_bareRight (inner : ∀ j ∈ right.spread.2, j.op.rank ≤ right.topRank) :
    ∀ j ∈ (if right.bareRight op then right.spread else (right, [])).2, j.op.rank < op.rank := by
  intro j member
  split at member
  · next bare =>
    cases right with
    | binary inner _ _ _ => exact Nat.lt_of_le_of_lt (inner j member) (of_decide_eq_true bare)
    | _ => contradiction
  · contradiction

theorem rank_le_topRank (e : Expr) : ∀ j ∈ e.spread.2, j.op.rank ≤ e.topRank := by
  match e with
  | binary op joins left right =>
    intro j member
    simp only [spread, List.mem_append, List.mem_cons] at member
    rcases member with inside | rfl | inside
    · exact rank_le_of_bareLeft (rank_le_topRank left) j inside
    · exact Nat.le_refl _
    · exact Nat.le_of_lt (rank_lt_of_bareRight (rank_le_topRank right) j inside)
  | atom _ | ternary .. | unary .. | rounded .. | index .. | slice .. | get .. | call .. | list ..
  | set .. => simp [spread]

theorem exists_of_forall₂_append {α β : Type} {R : α → β → Prop} {as as' : List α} {bs : List β}
    (all : List.Forall₂ R (as ++ as') bs) :
    ∃ xs ys, bs = xs ++ ys ∧ List.Forall₂ R as xs ∧ List.Forall₂ R as' ys := by
  induction as generalizing bs with
  | nil => exact ⟨[], bs, rfl, .nil, all⟩
  | cons a as ih =>
    cases all with
    | cons first others =>
      obtain ⟨xs, ys, rfl, before, after⟩ := ih others
      exact ⟨_ :: xs, ys, rfl, .cons first before, after⟩

theorem rank_of_forall₂ {js : List Joint} {links : List Link} {P : Nat → Prop}
    (all : List.Forall₂ Joint.Shows js links) (bound : ∀ j ∈ js, P j.op.rank) :
    ∀ l ∈ links, P l.rank := by
  induction all with
  | nil => simp
  | cons shown _ ih =>
    obtain ⟨first, others⟩ := List.forall_mem_cons.mp bound
    exact List.forall_mem_cons.mpr ⟨shown.rank ▸ first, ih others⟩

theorem shows_side (bare : Bool) {base : Tree} {links : List Link}
    (first : (if bare then e.spread else (e, [])).1.Shows base)
    (others : List.Forall₂ Joint.Shows (if bare then e.spread else (e, [])).2 links)
    (chain : e.spread.1.Shows base → List.Forall₂ Joint.Shows e.spread.2 links →
      e.Shows (arrange base links)) : e.Shows (arrange base links) := by
  cases bare with
  | true => exact chain first others
  | false =>
    obtain rfl := List.forall₂_nil_left_iff.mp others
    rw [arrange_nil]
    exact first

/-- Grouping the chain by precedence gives back the expression. -/
theorem shows_arrange (e : Expr) {base : Tree} {links : List Link} (first : e.spread.1.Shows base)
    (others : List.Forall₂ Joint.Shows e.spread.2 links) : e.Shows (arrange base links) := by
  match e with
  | binary op joins left right =>
    obtain ⟨before, rest, rfl, ahead, behind⟩ := exists_of_forall₂_append others
    cases behind with
    | @cons _ top _ after shown behind =>
      have low := rank_of_forall₂ (P := (· ≤ op.rank)) ahead
        (rank_le_of_bareLeft (rank_le_topRank left))
      have high := rank_of_forall₂ (P := (· < op.rank)) behind
        (rank_lt_of_bareRight (rank_le_topRank right))
      have rank : top.rank = op.rank := shown.rank
      have leftShown := shows_side (left.bareLeft op) first ahead fun h hs =>
        shows_arrange left h hs
      have rightShown := shows_side (right.bareRight op) shown.right behind fun h hs =>
        shows_arrange right h hs
      rw [arrange_append base (rank ▸ low) (rank ▸ high), Link.join, Link.shape, shown.binary]
      exact .binary shown.own leftShown rightShown
  | atom _ | ternary .. | unary .. | rounded .. | index .. | slice .. | get .. | call .. | list ..
  | set .. =>
    obtain rfl := List.forall₂_nil_left_iff.mp others
    rw [arrange_nil]
    exact first

end Expr
end ScriptSyntax
