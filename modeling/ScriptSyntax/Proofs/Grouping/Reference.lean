import Mathlib.Data.List.Induction
import Mathlib.Data.List.Perm.Basic
import ScriptSyntax.Proofs.Forest.Tree
import ScriptSyntax.Token.Kind

/-! The tree that precedence asks for. A chain of operators stands over a first operand, and each
operator of it carries its right operand. Of a chain the rightmost among the operators that bind
loosest comes on top, with the trees of the operators before it and after it below. -/
namespace ScriptSyntax

/-- An operator of a chain, with all it holds but its left operand. -/
structure Link where
  id : NodeId
  token : Token
  frozen : Bool
  /-- The middle operand, where the operator is a ternary one. -/
  center : Option Tree
  right : Tree
  rank : Nat
  ranked : token.kind.precedence = some rank

namespace Link

def shape (l : Link) (left right : Tree) : Shape Tree :=
  match l.center with
  | none => .binaryOp left right
  | some center => .ternaryOp left center right

/-- The operator over two operands. -/
def join (l : Link) (left right : Tree) : Tree :=
  .node l.id (l.shape left right) (some l.token) l.frozen

def ids (l : Link) : List NodeId := l.id :: (l.center.toList.flatMap Tree.ids ++ l.right.ids)

variable (l : Link) (left right : Tree)

@[simp] theorem id_join : (l.join left right).id = l.id := rfl

@[simp] theorem token_join : (l.join left right).token = some l.token := rfl

@[simp] theorem frozen_join : (l.join left right).frozen = l.frozen := rfl

theorem children_join : (l.join left right).children = left :: (l.center.toList ++ [right]) := by
  simp only [join, shape, Tree.children_node]
  split <;> simp [Shape.children, *]

end Link

namespace Tree

/-- The left operand of a ranked operator, and the operator without it. -/
def unlink? : Tree → Option (Tree × Link)
  | node id (.binaryOp left right) (some token) frozen =>
    match ranked : token.kind.precedence with
    | some rank => some (left, ⟨id, token, frozen, none, right, rank, ranked⟩)
    | none => none
  | node id (.ternaryOp left center right) (some token) frozen =>
    match ranked : token.kind.precedence with
    | some rank => some (left, ⟨id, token, frozen, some center, right, rank, ranked⟩)
    | none => none
  | _ => none

theorem unlink?_join (l : Link) (left right : Tree) :
    (l.join left right).unlink? = some (left, { l with right }) := by
  obtain ⟨id, token, frozen, center, old, rank, ranked⟩ := l
  cases center <;> simp only [Link.join, Link.shape, unlink?] <;> split <;> grind

theorem unlink?_eq_some {t left : Tree} {l : Link} :
    t.unlink? = some (left, l) ↔ t = l.join left l.right := by
  constructor
  · intro unlinked
    unfold unlink? at unlinked
    split at unlinked
    · split at unlinked
      · cases unlinked; rfl
      · contradiction
    · split at unlinked
      · cases unlinked; rfl
      · contradiction
    · contradiction
  · rintro rfl
    exact unlink?_join l left l.right

theorem sizeOf_left {t left : Tree} {l : Link} (unlinked : t.unlink? = some (left, l)) :
    sizeOf left < sizeOf t := by
  rw [unlink?_eq_some.mp unlinked]
  have := sizeOf_child (c := left) (s := l.shape left l.right)
    (by have := l.children_join left l.right; rw [Link.join, children_node] at this; simp [this])
  simp only [Link.join, node.sizeOf_spec]
  omega

/-- A ranked operator that is no finished expression, taken apart. -/
def unlinkOpen? (t : Tree) : Option (Tree × Link) := if t.frozen then none else t.unlink?

theorem unlinkOpen?_eq_some {t left : Tree} {l : Link} :
    t.unlinkOpen? = some (left, l) ↔ t.unlink? = some (left, l) ∧ l.frozen = false := by
  constructor
  · intro opened
    unfold unlinkOpen? at opened
    split at opened
    · contradiction
    · next frozen =>
      refine ⟨opened, ?_⟩
      rw [unlink?_eq_some.mp opened] at frozen
      simpa using frozen
  · rintro ⟨unlinked, opened⟩
    have frozen : t.frozen = false := by rw [unlink?_eq_some.mp unlinked]; exact opened
    simp [unlinkOpen?, frozen, unlinked]

/-- The first operand below a chain of open operators, and the operators, the first read first. -/
def chain (t : Tree) : Tree × List Link :=
  match _ : t.unlinkOpen? with
  | some (left, l) => (left.chain.1, left.chain.2 ++ [l])
  | none => (t, [])
termination_by sizeOf t
decreasing_by
  all_goals exact sizeOf_left (unlinkOpen?_eq_some.mp ‹_›).1

/-- A chain of operators over a first operand, each with all before it as its left operand. -/
def stack (base : Tree) (links : List Link) : Tree :=
  links.foldl (fun left l => l.join left l.right) base

@[simp] theorem stack_nil (base : Tree) : stack base [] = base := rfl

@[simp] theorem stack_append_singleton (base : Tree) (links : List Link) (l : Link) :
    stack base (links ++ [l]) = l.join (stack base links) l.right := by
  simp [stack]

theorem chain_spec (t : Tree) : stack t.chain.1 t.chain.2 = t ∧
    (∀ l ∈ t.chain.2, l.frozen = false) ∧ t.chain.1.unlinkOpen? = none := by
  induction t using chain.induct with
  | case1 t left l opened ih =>
    obtain ⟨unlinked, frozen⟩ := unlinkOpen?_eq_some.mp opened
    obtain ⟨stacked, all, closed⟩ := ih
    rw [chain]
    split
    · next left' l' again =>
      cases opened.symm.trans again
      refine ⟨?_, ?_, closed⟩
      · rw [stack_append_singleton, stacked]
        exact (unlink?_eq_some.mp unlinked).symm
      · intro m member
        rcases List.mem_append.mp member with h | h
        · exact all m h
        · rw [List.mem_singleton.mp h]
          exact frozen
    · next none => rw [opened] at none; contradiction
  | case2 t closed =>
    rw [chain]
    split
    · next some => rw [closed] at some; contradiction
    · exact ⟨rfl, by simp, closed⟩

theorem stack_chain_of_unlink? {t left : Tree} {l : Link} (unlinked : t.unlink? = some (left, l)) :
    stack left.chain.1 (left.chain.2 ++ [l]) = t := by
  rw [stack_append_singleton, (chain_spec left).1]
  exact (unlink?_eq_some.mp unlinked).symm

theorem chain_stack {base : Tree} {links : List Link} (closed : base.unlinkOpen? = none)
    (opened : ∀ l ∈ links, l.frozen = false) : (stack base links).chain = (base, links) := by
  induction links using List.reverseRecOn with
  | nil =>
    rw [stack_nil, chain]
    split <;> simp_all
  | append_singleton rest l ih =>
    have last : (stack base (rest ++ [l])).unlinkOpen? = some (stack base rest, l) := by
      rw [unlinkOpen?_eq_some, unlink?_eq_some]
      exact ⟨stack_append_singleton .., opened l (by simp)⟩
    rw [chain]
    split
    · next left m found =>
      cases last.symm.trans found
      rw [ih fun l member => opened l (by simp [member])]
    · next none => rw [last] at none; contradiction

/-- Splits a chain at the rightmost of the operators that bind loosest. -/
def splitLoosest : List Link → Option (List Link × Link × List Link)
  | [] => none
  | l :: rest =>
    match splitLoosest rest with
    | none => some ([], l, [])
    | some (before, top, after) =>
      if l.rank ≤ top.rank then some (l :: before, top, after) else some ([], l, rest)

theorem splitLoosest_eq_none {links : List Link} : splitLoosest links = none ↔ links = [] := by
  cases links with
  | nil => simp [splitLoosest]
  | cons l rest =>
    simp only [splitLoosest]
    split
    · simp
    · split <;> simp

theorem splitLoosest_spec {links before after : List Link} {top : Link}
    (split : splitLoosest links = some (before, top, after)) :
    links = before ++ top :: after ∧ (∀ l ∈ before, l.rank ≤ top.rank) ∧
      ∀ l ∈ after, l.rank < top.rank := by
  induction links generalizing before top after with
  | nil => contradiction
  | cons l rest ih =>
    simp only [splitLoosest] at split
    cases inner : splitLoosest rest with
    | none =>
      simp only [inner, Option.some.injEq, Prod.mk.injEq] at split
      obtain ⟨rfl, rfl, rfl⟩ := split
      simp [splitLoosest_eq_none.mp inner]
    | some parts =>
      obtain ⟨first, loosest, last⟩ := parts
      obtain ⟨eq, ahead, behind⟩ := ih inner
      simp only [inner] at split
      split at split
      · next looser =>
        simp only [Option.some.injEq, Prod.mk.injEq] at split
        obtain ⟨rfl, rfl, rfl⟩ := split
        exact ⟨by simp [eq], List.forall_mem_cons.mpr ⟨looser, ahead⟩, behind⟩
      · next tighter =>
        simp only [Option.some.injEq, Prod.mk.injEq] at split
        obtain ⟨rfl, rfl, rfl⟩ := split
        refine ⟨rfl, by simp, fun m member => ?_⟩
        rw [eq, List.mem_append, List.mem_cons] at member
        rcases member with h | rfl | h
        · have := ahead m h; omega
        · omega
        · have := behind m h; omega

theorem splitLoosest_append {before after : List Link} {top : Link}
    (ahead : ∀ l ∈ before, l.rank ≤ top.rank) (behind : ∀ l ∈ after, l.rank < top.rank) :
    splitLoosest (before ++ top :: after) = some (before, top, after) := by
  induction before with
  | nil =>
    simp only [List.nil_append, splitLoosest]
    cases inner : splitLoosest after with
    | none => simp [splitLoosest_eq_none.mp inner]
    | some parts =>
      obtain ⟨first, loosest, last⟩ := parts
      have member : loosest ∈ after := by simp [(splitLoosest_spec inner).1]
      simp [Nat.not_le.mpr (behind loosest member)]
  | cons l rest ih =>
    obtain ⟨first, others⟩ := List.forall_mem_cons.mp ahead
    simp [splitLoosest, ih others, first]

/-- The tree of a chain over its first operand. -/
def arrange (base : Tree) (links : List Link) : Tree :=
  match _ : splitLoosest links with
  | none => base
  | some (before, top, after) => top.join (arrange base before) (arrange top.right after)
termination_by links.length
decreasing_by
  all_goals
    rename_i split
    rw [(splitLoosest_spec split).1, List.length_append, List.length_cons]
    omega

@[simp] theorem arrange_nil (base : Tree) : arrange base [] = base := by
  rw [arrange]
  rfl

theorem arrange_append (base : Tree) {before after : List Link} {top : Link}
    (ahead : ∀ l ∈ before, l.rank ≤ top.rank) (behind : ∀ l ∈ after, l.rank < top.rank) :
    arrange base (before ++ top :: after) =
      top.join (arrange base before) (arrange top.right after) := by
  rw [arrange]
  split
  · next none => rw [splitLoosest_append ahead behind] at none; contradiction
  · next some =>
    rw [splitLoosest_append ahead behind] at some
    cases some
    rfl

/-- Induction over a chain, split as its tree is. -/
@[elab_as_elim] theorem arrangeInduction {P : Tree → List Link → Prop}
    (single : ∀ base, P base [])
    (split : ∀ base before top after, (∀ l ∈ before, l.rank ≤ top.rank) →
      (∀ l ∈ after, l.rank < top.rank) → P base before → P top.right after →
      P base (before ++ top :: after))
    (base : Tree) (links : List Link) : P base links := by
  induction base, links using arrange.induct with
  | case1 base links none =>
    rw [splitLoosest_eq_none.mp none]
    exact single base
  | case2 base links before top after found first second =>
    obtain ⟨rfl, ahead, behind⟩ := splitLoosest_spec found
    exact split base before top after ahead behind first second

theorem ids_join (l : Link) (left right : Tree) :
    (l.join left right).ids =
      l.id :: (left.ids ++ (l.center.toList.flatMap ids ++ right.ids)) := by
  rw [ids_eq, Link.children_join]
  simp

theorem ids_arrange (base : Tree) (links : List Link) :
    (arrange base links).ids.Perm (base.ids ++ links.flatMap Link.ids) := by
  induction base, links using arrangeInduction with
  | single base => simp
  | split base before top after ahead behind first second =>
    rw [arrange_append base ahead behind, ids_join]
    rw [List.perm_iff_count] at first second ⊢
    intro i
    have left := first i
    have right := second i
    simp only [List.count_cons, List.count_append, List.flatMap_append, List.flatMap_cons,
      Link.ids] at left right ⊢
    omega

/-- The tree after grouping. What is no ranked operator stays. -/
def grouped (t : Tree) : Tree :=
  match t.unlink? with
  | none => t
  | some (left, l) => arrange left.chain.1 (left.chain.2 ++ [l])

theorem ids_stack (base : Tree) (links : List Link) :
    (stack base links).ids.Perm (base.ids ++ links.flatMap Link.ids) := by
  induction links using List.reverseRecOn with
  | nil => simp
  | append_singleton rest l ih =>
    rw [stack_append_singleton, ids_join]
    rw [List.perm_iff_count] at ih ⊢
    intro i
    have left := ih i
    simp only [List.count_cons, List.count_append, List.flatMap_append, List.flatMap_cons,
      List.flatMap_nil, List.append_nil, Link.ids] at left ⊢
    omega

theorem grouped_of_unlink? {t left : Tree} {l : Link} (unlinked : t.unlink? = some (left, l)) :
    t.grouped = arrange left.chain.1 (left.chain.2 ++ [l]) := by
  simp [grouped, unlinked]

theorem grouped_of_unlink?_none {t : Tree} (plain : t.unlink? = none) : t.grouped = t := by
  simp [grouped, plain]

/-- Grouping keeps the nodes. -/
theorem ids_grouped (t : Tree) : t.grouped.ids.Perm t.ids := by
  cases unlinked : t.unlink? with
  | none => rw [grouped_of_unlink?_none unlinked]
  | some parts =>
    obtain ⟨left, l⟩ := parts
    have stacked := stack_chain_of_unlink? unlinked
    rw [grouped_of_unlink? unlinked, ← stacked]
    exact (ids_arrange ..).trans (ids_stack ..).symm

section

variable {P : Tree → Prop}
  (join : ∀ (l : Link) (left right : Tree),
    P (l.join left right) ↔ P left ∧ (∀ c ∈ l.center, P c) ∧ P right)
include join

theorem stack_iff (base : Tree) (links : List Link) :
    P (stack base links) ↔ P base ∧ ∀ l ∈ links, (∀ c ∈ l.center, P c) ∧ P l.right := by
  induction links using List.reverseRecOn with
  | nil => simp
  | append_singleton rest l ih =>
    rw [stack_append_singleton, join, ih, List.forall_mem_append, List.forall_mem_singleton,
      and_assoc]

theorem arrange_iff (base : Tree) (links : List Link) :
    P (arrange base links) ↔ P base ∧ ∀ l ∈ links, (∀ c ∈ l.center, P c) ∧ P l.right := by
  induction base, links using arrangeInduction with
  | single base => simp
  | split base before top after ahead behind first second =>
    rw [arrange_append base ahead behind, join, first, second, List.forall_mem_append,
      List.forall_mem_cons]
    tauto

/-- What an operator has just where its operands have it is not changed by grouping. -/
theorem grouped_iff (t : Tree) : P t.grouped ↔ P t := by
  cases unlinked : t.unlink? with
  | none => rw [grouped_of_unlink?_none unlinked]
  | some parts =>
    obtain ⟨left, l⟩ := parts
    rw [grouped_of_unlink? unlinked, arrange_iff join, ← stack_iff join,
      stack_chain_of_unlink? unlinked]

end

end Tree
end ScriptSyntax
