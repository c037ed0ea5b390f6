import ScriptSyntax.Proofs.Grouping.Reference

/-! Trees that grouping leaves as they are. A finished expression is one of them, so that it is the
same when it is grouped once more as an operand. -/
namespace ScriptSyntax.Tree

/-- A tree that is no open operator and does not change when it is grouped. -/
structure Settled (t : Tree) : Prop where
  closed : t.unlinkOpen? = none
  stable : t.grouped = t

/-- What stands between the open operators of a chain, in the order in which it is read. -/
def operands (t : Tree) : List Tree :=
  t.chain.1 :: t.chain.2.flatMap fun l => l.center.toList ++ [l.right]

variable {t base left right : Tree} {links spine : List Link} {l : Link}

theorem settled_of_unlink?_none (plain : t.unlink? = none) : t.Settled :=
  ⟨by simp [unlinkOpen?, plain], grouped_of_unlink?_none plain⟩

theorem chain_of_closed (closed : t.unlinkOpen? = none) : t.chain = (t, []) := by
  have stacked : (stack t []).chain = (t, []) := chain_stack closed (by simp)
  exact stacked

theorem chain_join (opened : l.frozen = false) :
    (l.join left right).chain = (left.chain.1, left.chain.2 ++ [{ l with right }]) := by
  obtain ⟨stacked, all, closed⟩ := chain_spec left
  have whole : l.join left right = stack left.chain.1 (left.chain.2 ++ [{ l with right }]) := by
    rw [stack_append_singleton, stacked]
    rfl
  rw [whole]
  apply chain_stack closed
  rw [List.forall_mem_append, List.forall_mem_singleton]
  exact ⟨all, opened⟩

theorem operands_of_closed (closed : t.unlinkOpen? = none) : t.operands = [t] := by
  simp [operands, chain_of_closed closed]

theorem operands_join (opened : l.frozen = false) :
    (l.join left right).operands = left.operands ++ (l.center.toList ++ [right]) := by
  simp [operands, chain_join opened]

section Operator

variable {i : NodeId} {op : Token} {center : Tree} {rank : Nat}

theorem operands_binaryOp (ranked : op.kind.precedence = some rank) :
    (node i (.binaryOp left right) (some op) false).operands = left.operands ++ [right] :=
  operands_join (l := ⟨i, op, false, none, right, rank, ranked⟩) rfl

theorem operands_ternaryOp (ranked : op.kind.precedence = some rank) :
    (node i (.ternaryOp left center right) (some op) false).operands =
      left.operands ++ [center, right] :=
  operands_join (l := ⟨i, op, false, some center, right, rank, ranked⟩) rfl

end Operator

/-- The operators down the left side of a grouped chain bind the tighter, the lower they are. -/
theorem exists_spine (base : Tree) (links : List Link) :
    ∃ spine, arrange base links = stack base spine ∧ spine.Pairwise (·.rank ≤ ·.rank) ∧
      ∀ s ∈ spine, ∃ l ∈ links, s.rank = l.rank ∧ s.frozen = l.frozen := by
  induction base, links using arrangeInduction with
  | single base => exact ⟨[], by simp, by simp, by simp⟩
  | split base before top after ahead behind first =>
    obtain ⟨spine, same, sorted, origin⟩ := first
    refine ⟨spine ++ [{ top with right := arrange top.right after }], ?_, ?_, ?_⟩
    · rw [arrange_append base ahead behind, stack_append_singleton, same]
      rfl
    · rw [List.pairwise_append]
      refine ⟨sorted, List.pairwise_singleton .., ?_⟩
      intro s member m last
      obtain ⟨l, source, rank, -⟩ := origin s member
      rw [List.mem_singleton.mp last, rank]
      exact ahead l source
    · rw [List.forall_mem_append, List.forall_mem_singleton]
      constructor
      · intro s member
        obtain ⟨l, source, same⟩ := origin s member
        exact ⟨l, by simp [source], same⟩
      · exact ⟨top, by simp, rfl, rfl⟩

theorem arrange_of_pairwise (sorted : links.Pairwise (·.rank ≤ ·.rank)) :
    arrange base links = stack base links := by
  induction links using List.reverseRecOn with
  | nil => simp
  | append_singleton rest l ih =>
    obtain ⟨earlier, -, last⟩ := List.pairwise_append.mp sorted
    have ahead : ∀ m ∈ rest, m.rank ≤ l.rank := fun m member => last m member l (by simp)
    rw [arrange_append base ahead (by simp), ih earlier, arrange_nil, stack_append_singleton]

theorem grouped_stack_append (closed : base.unlinkOpen? = none)
    (opened : ∀ m ∈ links, m.frozen = false) :
    (stack base (links ++ [l])).grouped = arrange base (links ++ [l]) := by
  have unlinked := unlink?_join l (stack base links) l.right
  rw [stack_append_singleton, grouped_of_unlink? unlinked, chain_stack closed opened]

theorem grouped_stack (settled : base.Settled) (opened : ∀ m ∈ links, m.frozen = false) :
    (stack base links).grouped = arrange base links := by
  induction links using List.reverseRecOn with
  | nil => simpa using settled.stable
  | append_singleton rest l =>
    exact grouped_stack_append settled.closed fun m member => opened m (by simp [member])

/-- Grouping a chain again changes nothing. Where its last operator is a finished expression, that
operator is on top or in a right operand, so the operators down the left side are open. -/
theorem grouped_arrange (closed : base.unlinkOpen? = none)
    (opened : ∀ m ∈ links, m.frozen = false) :
    (arrange base (links ++ [l])).grouped = arrange base (links ++ [l]) := by
  cases found : splitLoosest (links ++ [l]) with
  | none =>
    have empty := splitLoosest_eq_none.mp found
    simp at empty
  | some parts =>
    obtain ⟨before, top, after⟩ := parts
    obtain ⟨split, ahead, behind⟩ := splitLoosest_spec found
    have front : links = before ++ (top :: after).dropLast := by
      have shorter := congrArg List.dropLast split
      rwa [List.dropLast_concat, List.dropLast_append_of_ne_nil (List.cons_ne_nil _ _)] at shorter
    obtain ⟨spine, same, sorted, origin⟩ := exists_spine base before
    have all : ∀ s ∈ spine, s.frozen = false := by
      intro s member
      obtain ⟨m, source, -, eq⟩ := origin s member
      rw [eq]
      exact opened m (by simp [front, source])
    have looser : ∀ s ∈ spine, s.rank ≤ top.rank := by
      intro s member
      obtain ⟨m, source, eq, -⟩ := origin s member
      rw [eq]
      exact ahead m source
    have whole : arrange base (links ++ [l]) =
        stack base (spine ++ [{ top with right := arrange top.right after }]) := by
      rw [split, arrange_append base ahead behind, same, stack_append_singleton]
      rfl
    rw [whole, grouped_stack_append closed all]
    apply arrange_of_pairwise
    rw [List.pairwise_append]
    refine ⟨sorted, List.pairwise_singleton .., ?_⟩
    simpa using looser

theorem grouped_grouped (t : Tree) : t.grouped.grouped = t.grouped := by
  cases unlinked : t.unlink? with
  | none => rw [grouped_of_unlink?_none unlinked, grouped_of_unlink?_none unlinked]
  | some parts =>
    obtain ⟨left, l⟩ := parts
    obtain ⟨-, opened, closed⟩ := chain_spec left
    rw [grouped_of_unlink? unlinked]
    exact grouped_arrange closed opened

theorem unlinkOpen?_freeze (t : Tree) : t.freeze.unlinkOpen? = none := by
  cases t
  rfl

theorem unlink?_freeze_of_none (plain : t.unlink? = none) : t.freeze.unlink? = none := by
  rw [Option.eq_none_iff_forall_not_mem]
  rintro ⟨left, l⟩ member
  have frozen := unlink?_eq_some.mp member
  have thawed : t = ({ l with frozen := t.frozen } : Link).join left l.right := by
    cases t
    obtain ⟨rfl, rfl, rfl, -⟩ := Tree.node.inj frozen
    rfl
  rw [thawed, unlink?_join] at plain
  contradiction

theorem Settled.freeze (settled : t.Settled) : t.freeze.Settled := by
  constructor
  case closed => exact unlinkOpen?_freeze t
  case stable =>
    cases frozen : t.frozen with
    | true =>
      have same : t.freeze = t := by
        cases t
        cases frozen
        rfl
      rw [same, settled.stable]
    | false =>
      have plain := settled.closed
      simp only [unlinkOpen?, frozen, Bool.false_eq_true, if_false] at plain
      exact grouped_of_unlink?_none (unlink?_freeze_of_none plain)

/-- A chain that was grouped and finished does not change any more. -/
theorem settled_freeze_arrange (settled : base.Settled) (opened : ∀ m ∈ links, m.frozen = false) :
    (arrange base links).freeze.Settled := by
  obtain ⟨spine, same, sorted, origin⟩ := exists_spine base links
  rw [same]
  induction spine using List.reverseRecOn with
  | nil => exact settled.freeze
  | append_singleton rest s =>
    constructor
    case closed => exact unlinkOpen?_freeze _
    have frozen : (stack base (rest ++ [s])).freeze =
        stack base (rest ++ [{ s with frozen := true }]) := by
      rw [stack_append_singleton, stack_append_singleton]
      rfl
    have all : ∀ m ∈ rest, m.frozen = false := fun m member => by
      obtain ⟨l, from_, -, eq⟩ := origin m (by simp [member])
      rw [eq, opened l from_]
    rw [frozen, grouped_stack_append settled.closed all]
    apply arrange_of_pairwise
    rw [List.pairwise_append] at sorted ⊢
    exact ⟨sorted.1, List.pairwise_singleton .., by simpa using sorted.2.2⟩

theorem arrange_singleton (base : Tree) (l : Link) : arrange base [l] = l.join base l.right :=
  arrange_of_pairwise (List.pairwise_singleton ..)

theorem settled_freeze_join {l : Link} (settled : base.Settled) (opened : l.frozen = false) :
    (l.join base l.right).freeze.Settled := by
  rw [← arrange_singleton]
  exact settled_freeze_arrange settled (List.forall_mem_singleton.mpr opened)

end ScriptSyntax.Tree
