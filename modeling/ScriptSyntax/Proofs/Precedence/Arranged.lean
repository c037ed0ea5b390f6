import ScriptSyntax.Proofs.Grouping.Settled
import ScriptSyntax.Proofs.Precedence.Operand

/-! A grouped chain obeys precedence where ranks do not matter for what it was made of. -/
namespace ScriptSyntax

namespace Link

variable {l : Link} {left right : Tree}

@[simp] theorem rank?_join : (l.join left right).rank? = some l.rank := l.ranked

theorem left?_join : (l.join left right).shape.left? = some left := by
  cases center : l.center <;> simp [join, shape, center, Shape.left?]

theorem eq_of_join_binaryOp {first second : Tree}
    (same : (l.join left right).shape = .binaryOp first second) :
    l.center = none ∧ right = second := by
  cases center : l.center <;> simp_all [join, shape]

end Link

namespace Tree

variable {tokens ops : List Token} {base : Tree} {links before after : List Link} {top : Link}

/-- Whether only the ranks of the operators matter in a chain. The right operand of a ternary
operator at the end stays where it is. -/
structure Chained (tokens ops : List Token) (base : Tree) (links : List Link) : Prop where
  mem_ops : ∀ l ∈ links, l.token ∈ ops
  base : links ≠ [] → base.Apart tokens ops
  inner : ∀ l ∈ links.dropLast, l.right.Apart tokens ops
  binary : ∀ l ∈ links, l.center = none → l.right.Apart tokens ops

theorem Chained.front (chained : Chained tokens ops base (before ++ top :: after)) :
    Chained tokens ops base before := by
  constructor
  · exact fun l member => chained.mem_ops l (by simp [member])
  · exact fun _ => chained.base (by simp)
  · intro l member
    have inside := (List.dropLast_sublist before).subset member
    exact chained.inner l (by simp [inside])
  · exact fun l member => chained.binary l (by simp [member])

theorem Chained.back (chained : Chained tokens ops base (before ++ top :: after)) :
    Chained tokens ops top.right after := by
  constructor
  · exact fun l member => chained.mem_ops l (by simp [member])
  · intro more
    apply chained.inner top
    cases after with
    | nil => contradiction
    | cons next rest => simp
  · intro l member
    apply chained.inner l
    cases after with
    | nil => contradiction
    | cons next rest => simp [member]
  · exact fun l member => chained.binary l (by simp [member])

theorem exists_join (base : Tree) (some : links ≠ []) :
    ∃ l ∈ links, ∃ left right, arrange base links = l.join left right := by
  induction base, links using arrangeInduction with
  | single => contradiction
  | split base before top after ahead behind =>
    exact ⟨top, by simp, _, _, arrange_append base ahead behind⟩

/-- The operand that a chain makes fits under an operator that all of the chain binds tighter
than. -/
theorem fits_arrange {binds : Nat → Nat → Prop} {p : Tree} {loose : Nat}
    (operand : links = [] → base.Apart tokens p.token.toList) (outer : p.rank? = some loose)
    (bound : ∀ l ∈ links, binds l.rank loose) : Fits tokens binds p (arrange base links) := by
  by_cases none : links = []
  · subst none
    rw [arrange_nil]
    exact .inl (operand rfl)
  · obtain ⟨l, member, left, right, same⟩ := exists_join base none
    rw [same]
    exact .inr ⟨l.rank, loose, Link.rank?_join, outer, bound l member⟩

theorem Chained.obeys (chained : Chained tokens ops base links)
    (below : ∀ p ∈ base.nodes, p.Obeys tokens)
    (between : ∀ l ∈ links, ∀ t ∈ l.center.toList ++ [l.right], ∀ p ∈ t.nodes, p.Obeys tokens) :
    ∀ p ∈ (arrange base links).nodes, p.Obeys tokens := by
  induction base, links using arrangeInduction with
  | single base => simpa using below
  | split base before top after ahead behind first second =>
    have parts := between top (by simp)
    replace first := first chained.front below fun l member => between l (by simp [member])
    replace second := second chained.back (parts top.right (by simp))
      fun l member => between l (by simp [member])
    have apart {c : Tree} (apart : c.Apart tokens ops) : c.Apart tokens [top.token] := by
      apply apart.widen (List.infix_refl _)
      rw [List.forall_mem_singleton]
      exact .inl (chained.mem_ops top (by simp))
    rw [arrange_append base ahead behind]
    intro p member
    rcases mem_nodes_iff.mp member with rfl | ⟨c, child, inside⟩
    · constructor
      case ranked => exact fun _ => ⟨top.rank, Link.rank?_join⟩
      case left =>
        intro c left
        rw [Link.left?_join] at left
        obtain rfl := Option.some.inj left
        exact fits_arrange (fun _ => apart (chained.base (by simp))) Link.rank?_join ahead
      case right =>
        intro l c same
        obtain ⟨center, rfl⟩ := Link.eq_of_join_binaryOp same
        exact fits_arrange (fun _ => apart (chained.binary top (by simp) center)) Link.rank?_join
          behind
    · rw [Link.children_join, List.mem_cons, List.mem_append, List.mem_singleton] at child
      rcases child with rfl | center | rfl
      · exact first p inside
      · exact parts c (by simp [center]) p inside
      · exact second p inside

end Tree
end ScriptSyntax
