import ScriptSyntax.Proofs.Precedence.Arranged
import ScriptSyntax.Proofs.Reading.Derived

/-! A chain of operators as an expression reads it. Between its open operators stand terms that are
apart from them, and only its last operator, if it is a ternary one, may have another operator on
its right. -/
namespace ScriptSyntax

open ScriptSyntax.Tree (stack arrange Chained)

theorem Kind.exists_rank {k : Kind} (joins : k.isBinaryOperator = true) :
    ∃ rank, k.precedence = some rank :=
  Option.isSome_iff_exists.mp (Kind.of_all (Q := fun k => k.precedence.isSome) rfl joins)

theorem exists_rank_of_joinsOperands {stops : List Kind} {k : Kind}
    (joins : joinsOperands stops k = true) : ∃ rank, k.precedence = some rank :=
  Kind.exists_rank (isBinaryOperator_of_joinsOperands joins)

theorem endsExpression_of_joinsOperands {stops : List Kind} {k : Kind}
    (joins : joinsOperands stops k = true) : endsExpression stops k = false := by
  simp only [joinsOperands, Bool.and_eq_true, Bool.not_eq_true'] at joins
  obtain ⟨⟨operator, goesOn⟩, -⟩ := joins
  simp only [endsExpression, operator, goesOn, Bool.or_true, Bool.not_true, Bool.or_false]

/-- A chain between tokens of which no two are the same. -/
structure Chain (stops : List Kind) (ts : List Token) (next : Token) (base : Tree)
    (links : List Link) : Prop where
  settled : base.Settled
  opened : ∀ l ∈ links, l.frozen = false
  written : ∀ l ∈ links, l.token ∈ ts ∧ l.token.written = l.token
  chained : Chained ts (links.map Link.token) base links
  base : base.Apart ts (links.map Link.token)
  /-- What comes before another operator is apart. -/
  rights : endsExpression stops next.kind = false →
    ∀ l ∈ links, l.right.Apart ts (links.map Link.token)

namespace Chain

variable {stops : List Kind} {ts us : List Token} {op next : Token} {base : Tree}
  {links : List Link} {l : Link}

theorem single (settled : base.Settled) (apart : base.Apart ts []) : Chain stops ts next base [] :=
  ⟨settled, by simp, by simp, ⟨by simp, by simp, by simp, by simp⟩, apart, by simp⟩

/-- A chain goes on with another operator and its right operand. -/
theorem snoc (chain : Chain stops ts l.token base links)
    (goesOn : endsExpression stops l.token.kind = false) (own : l.token.written = l.token)
    (opened : l.frozen = false) (nodup : (ts ++ l.token :: us).Nodup)
    (right : l.center = none ∨ endsExpression stops next.kind = false → l.right.Apart us []) :
    Chain stops (ts ++ l.token :: us) next base (links ++ [l]) := by
  obtain ⟨-, later, disjoint⟩ := List.nodup_append.mp nodup
  have known : ∀ m ∈ links ++ [l],
      m.token ∈ ts ++ [l.token] ∧ m.token.written = m.token := by
    rw [List.forall_mem_append, List.forall_mem_singleton]
    constructor
    · intro m member
      have ⟨inside, same⟩ := chain.written m member
      exact ⟨List.mem_append_left _ inside, same⟩
    · exact ⟨by simp, own⟩
  -- The new operator stands after the phrases before it, and all operators before the new operand.
  have before {c : Tree} (apart : c.Apart ts (links.map Link.token)) :
      c.Apart (ts ++ l.token :: us) ((links ++ [l]).map Link.token) := by
    apply apart.widen (List.prefix_append ..).isInfix
    rw [List.map_append, List.forall_mem_append, List.map_singleton, List.forall_mem_singleton]
    constructor
    · exact fun k member => .inl member
    · rw [own]
      exact .inr fun inside => disjoint _ inside _ (by simp) rfl
  have behind {c : Tree} (apart : c.Apart us []) :
      c.Apart (ts ++ l.token :: us) ((links ++ [l]).map Link.token) := by
    apply apart.widen ⟨ts ++ [l.token], [], by simp⟩
    intro k member
    obtain ⟨m, link, rfl⟩ := List.mem_map.mp member
    obtain ⟨place, same⟩ := known m link
    rw [same]
    refine .inr fun inside => ?_
    rcases List.mem_append.mp place with h | h
    · exact disjoint _ h _ (by simp [inside]) rfl
    · rw [List.mem_singleton.mp h] at inside
      exact (List.nodup_cons.mp later).1 inside
  have earlier : ∀ m ∈ links,
      m.right.Apart (ts ++ l.token :: us) ((links ++ [l]).map Link.token) :=
    fun m member => before (chain.rights goesOn m member)
  constructor
  case settled => exact chain.settled
  case opened =>
    rw [List.forall_mem_append, List.forall_mem_singleton]
    exact ⟨chain.opened, opened⟩
  case written =>
    intro m member
    obtain ⟨place, same⟩ := known m member
    rw [← List.singleton_append, ← List.append_assoc]
    exact ⟨List.mem_append_left _ place, same⟩
  case chained =>
    constructor
    case mem_ops => exact fun m member => List.mem_map_of_mem member
    case base => exact fun _ => before chain.base
    case inner => rwa [List.dropLast_concat]
    case binary =>
      rw [List.forall_mem_append, List.forall_mem_singleton]
      exact ⟨fun m member _ => earlier m member, fun center => behind (right (.inl center))⟩
  case base => exact before chain.base
  case rights =>
    intro ends
    rw [List.forall_mem_append, List.forall_mem_singleton]
    exact ⟨earlier, behind (right (.inr ends))⟩

end Chain
end ScriptSyntax
