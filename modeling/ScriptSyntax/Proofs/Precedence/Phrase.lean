import ScriptSyntax.Proofs.Precedence.Chain

/-! What the phrases of an expression tell of their tree. -/
namespace ScriptSyntax

open ScriptSyntax.Tree (stack apart_of_plain)

namespace Tree

variable {t : Tree} {ts us : List Token}

/-- What may stand between operators: no open operator, and apart from all tokens outside. -/
structure IsTerm (ts : List Token) (t : Tree) : Prop where
  settled : t.Settled
  apart : t.Apart ts []

theorem settled_of_plain (plain : t.isOperator = false) : t.Settled := by
  refine settled_of_unlink?_none ?_
  obtain ⟨id, shape, token, frozen⟩ := t
  cases shape <;> first | rfl | contradiction

theorem isTerm_of_plain (plain : t.isOperator = false) : t.IsTerm ts :=
  ⟨settled_of_plain plain, apart_of_plain plain⟩

theorem IsTerm.widen (term : t.IsTerm us) (within : us <:+: ts) : t.IsTerm ts :=
  ⟨term.settled, term.apart.widen within fun _ member => .inl member⟩

theorem isOperator_of_leaf {i : NodeId} {s : Shape Tree} {k : Option Token} {f : Bool}
    (leaf : s.children = []) : (Tree.node i s k f).isOperator = false := by
  cases s <;> simp_all [isOperator, Shape.left?, Shape.children]

end Tree

/-- What is known of the tree of a phrase that belongs to an expression. -/
def Phrase.Tells : {y : Yield} → Phrase y → List Token → Token → y.Result → Prop
  | _, .chain stops, ts, next, t =>
    ∃ base links, stack base links = t ∧ Chain stops ts next base links
  | _, .expression stops _, _, next, t =>
    t.Settled ∧ (t.isOperator = true → endsExpression stops next.kind = true)
  | _, .term _, ts, _, t | _, .operand, ts, _, t | _, .group, ts, _, t => t.IsTerm ts
  | _, .inline _, _, _, t | _, .collection, _, _, t => t.isOperator = false
  | _, _, _, _, _ => True

/-- The terms of an expression are apart from the operators between them. -/
theorem Derives.tells {y : Yield} {p : Phrase y} {ts : List Token} {next : Token} {r : y.Result}
    (derives : Derives p ts next r) (nodup : ts.Nodup) : p.Tells ts next r := by
  have plain {stops : List Kind} {t : Tree} {next : Token} (plain : t.isOperator = false) :
      t.Settled ∧ (t.isOperator = true → endsExpression stops next.kind = true) :=
    ⟨Tree.settled_of_plain plain, by simp [plain]⟩
  induction derives with
  | empty | assigned | declaredAssigned => exact plain rfl
  | declared _ inner => exact plain (inner nodup)
  | settled _ ends inner =>
    obtain ⟨base, links, rfl, chain⟩ := inner nodup
    rw [Tree.grouped_stack chain.settled chain.opened]
    exact ⟨Tree.settled_freeze_arrange chain.settled chain.opened, fun _ => ends⟩
  | inline => rfl
  | first _ inner => exact ⟨_, [], rfl, .single (inner nodup).settled (inner nodup).apart⟩
  | @binary _ _ op _ _ _ r i _ joins _ left right =>
    obtain ⟨base, links, rfl, chain⟩ := left (nodup.sublist (List.sublist_append_left ..))
    obtain ⟨rank, ranked⟩ := exists_rank_of_joinsOperands joins
    have goesOn := endsExpression_of_joinsOperands joins
    have own := Kind.written_of (isBinaryOperator_of_joinsOperands joins) rfl rfl
    let last : Link := ⟨i, op, false, none, r, rank, ranked⟩
    have term := right (nodup.sublist (by simp))
    exact ⟨base, links ++ [last], Tree.stack_append_singleton .., chain.snoc (l := last) goesOn
      (Token.written_of_kind own) rfl nodup fun _ => term.apart⟩
  | @ternary stops _ op _ _ _ c _ _ r i _ kind stop _ _ _ left center right =>
    obtain ⟨base, links, rfl, chain⟩ :=
      left (nodup.sublist (by simp [List.append_assoc]))
    have ranked : op.kind.precedence = some 16 := kind ▸ rfl
    have goesOn : endsExpression stops op.kind = false := by
      rw [endsExpression, stop, kind]
      rfl
    have own : op.kind.written = op.kind := kind ▸ rfl
    let last : Link := ⟨i, op, false, some c, r, 16, ranked⟩
    have result := right (nodup.sublist
      ((List.sublist_cons_self ..).trans (List.sublist_append_right ..)))
    rw [List.append_assoc, List.cons_append] at nodup ⊢
    refine ⟨base, links ++ [last], Tree.stack_append_singleton .., chain.snoc (l := last) goesOn
      (Token.written_of_kind own) rfl nodup fun only => apart_of_plain ?_⟩
    rw [Bool.eq_false_iff]
    intro operator
    simp [last, result.2 operator] at only
  | simple _ inner | grouped _ inner => exact inner nodup
  | pointer | leading | func | interface | enumeration | index | slice | get | call | trailing
  | deref => exact Tree.isTerm_of_plain rfl
  | plus _ _ inner =>
    exact (inner (List.nodup_cons.mp nodup).2).widen (List.suffix_cons ..).isInfix
  | record => exact Tree.isTerm_of_plain (by unfold Shape.ofRecord; split <;> rfl)
  | container _ inner => exact Tree.isTerm_of_plain (inner nodup)
  | atom found => exact Tree.isTerm_of_plain (Tree.isOperator_of_leaf (leaf_of_atomShape? found))
  | @rounding _ op t token _ i j shape _ round _ operand =>
    have term := operand (nodup.sublist (List.sublist_append_left ..))
    let l : Link := ⟨i, op, true, none, .node j shape (some token) false, 4, round ▸ rfl⟩
    have stable : (stack t ([] ++ [l])).grouped = _ :=
      Tree.grouped_stack_append term.settled.closed (by simp)
    rw [List.nil_append, Tree.arrange_of_pairwise (List.pairwise_singleton ..)] at stable
    exact ⟨⟨rfl, stable⟩, fun _ => .inl (by simp [Tree.isRounding, round])⟩
  | @group inside _ _ _ _ opens derives closes inner =>
    refine ⟨(inner (nodup.sublist (by simp))).1, fun _ => .inr ⟨inside, ?_, ?_, by simp⟩⟩
    · exact ⟨[], _, _, [], rfl, opens, closes, derives.nested⟩
    · have accounts : Accounts [] [] _ _ := derives.accounts .start
      exact fun k member => accounts.written_mem (by simpa using member)
  | shorthand _ same => exact Tree.isOperator_of_leaf (leaf_of_emptyShape same)
  | emptyList | list =>
    unfold Shape.ofList
    split <;> rfl
  | range =>
    unfold Shape.ofRange
    split <;> rfl
  | map =>
    unfold Shape.ofEntries
    split <;> rfl
  | set | undirectedGraph | directedGraph => rfl
  | _ => trivial

end ScriptSyntax
