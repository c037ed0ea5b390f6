import ScriptSyntax.Proofs.Printing.Term

/-! Printed expressions as a whole. The operators of a chain are read one by one, and where the
expression ends the chain is grouped. -/
namespace ScriptSyntax

open ScriptSyntax.Tree (stack arrange stack_append_singleton)

namespace Expr

open Lexeme

/-- Whether the tokens are read as the expression where they stand before one that ends it. -/
def Reads (e : Expr) (ls : List Lexeme) : Prop :=
  ∀ ⦃stops : List Kind⦄ ⦃assignable : Bool⦄ ⦃c : Cursor⦄ ⦃next : Lexeme⦄ ⦃rest : List Lexeme⦄
    ⦃forest : List Tree⦄, stops ⊆ closers → next.kind ∈ stops →
    c.Before (ls ++ next :: rest) forest →
    Gives (Grammar.expression stops assignable) c (e.Reached (next :: rest) forest)

variable {e : Expr} {style : Style} {ls ahead rest : List Lexeme} {l m next : Lexeme} {c : Cursor}
  {forest : List Tree} {stops : List Kind} {assignable : Bool} {base t : Tree} {links : List Link}
  {js : List Joint}

/-- Where the expression ends its chain is grouped and finished. -/
theorem weave_ends (links : List Link)
    (here : c.Before (next :: rest) (forest ++ [stack base links]))
    (stop : next.kind ∈ stops) (settled : base.Settled) (opened : ∀ m ∈ links, m.frozen = false) :
    Gives (Grammar.weave (stack base links).id stops assignable) c fun i c' =>
      i = (arrange base links).freeze.id ∧
        c'.Before (next :: rest) (forest ++ [(arrange base links).freeze]) := by
  refine here.current ?_
  rw [if_pos (by simpa using stop), ← Tree.grouped_stack settled opened]
  exact here.settle

/-- An operator whose right operand is printed as such is none of the signs that mean something
else. -/
theorem weave_joint {post : NodeId → Cursor → Prop} {j : Joint}
    (here : c.Before (j.lexemes style ++ rest) forest) (within : stops ⊆ closers) {left : NodeId}
    (more : ∀ c', c'.Before (j.lexemes style ++ rest) forest →
      Gives (Grammar.binary left stops assignable) c' post) :
    Gives (Grammar.weave left stops assignable) c post := by
  obtain ⟨m, ms, same, begins⟩ := operand_cons style j.right
  obtain ⟨own, goesOn, other, plain, -⟩ := Kind.apart_of_isBinaryOperator j.joins
  obtain ⟨-, noType, noStar, noOpener⟩ := apart_of_beginsOperand begins
  rw [Joint.lexemes, same, sign, own] at here more
  have inside : j.op ∉ stops := fun stop => goesOn (within stop)
  refine here.current ?_
  simp only [List.contains_iff_mem, inside, other, if_false]
  split
  · next less =>
    have value : Gives (Grammar.isAtInlineTypes left) c fun b c' =>
        b = false ∧ c'.Before (⟨j.op, j.op.spelling⟩ :: m :: (ms ++ rest)) forest := by
      refine (here.inspect left).bind fun profile c₁ here => ?_
      split
      · refine here.peek.bind ?_
        rintro k c₂ ⟨rfl, here⟩
        simp only [noType, noStar, noOpener, Bool.false_eq_true, decide_false, Bool.or_self,
          if_false]
        exact .pure ⟨rfl, here⟩
      · exact .pure ⟨rfl, here⟩
    refine value.bind ?_
    rintro b c₁ ⟨rfl, here⟩
    exact more c₁ here
  · simp only [j.joins, if_true]
    exact more c here

/-- The operator takes what was read before it as its left operand. -/
theorem binary_joint {post : NodeId → Cursor → Prop} {j : Joint}
    (here : c.Before (j.lexemes style ++ ahead) (forest ++ [t])) (goesOn : ahead ≠ [])
    (right : Stands j.right (j.right.operand style) ahead)
    (more : ∀ l c', j.Shows l → l.frozen = false →
      c'.Before ahead (forest ++ [l.join t l.right]) →
      Gives (Grammar.weave (l.join t l.right).id stops assignable) c' post) :
    Gives (Grammar.binary t.id stops assignable) c post := by
  refine (here.shift (by simp [goesOn])).bind ?_
  rintro token c₁ ⟨own, here⟩
  rw [sign, (Kind.apart_of_isBinaryOperator j.joins).1] at own
  have kind : token.kind = j.op := congrArg Lexeme.kind own
  obtain ⟨rank, ranked⟩ := Kind.exists_rank j.joins
  rw [← kind] at ranked
  refine Gives.bind (.call (right here)) ?_
  rintro _ c₂ ⟨r, rfl, -, shown, here⟩
  refine (here.add forest (.binaryOp t r) rfl (by simp [Shape.children])).bind ?_
  intro i c₃ here
  exact .call (more ⟨i, token, false, none, r, rank, ranked⟩ c₃ ⟨own, rfl, shown⟩ rfl here)

/-- The operators of a chain are read after its first operand. -/
theorem weave_joints (links : List Link) (within : stops ⊆ closers) (stop : next.kind ∈ stops)
    (settled : base.Settled)
    (stands : ∀ j ∈ js, ∀ ahead, Halts ahead → Stands j.right (j.right.operand style) ahead)
    (here : c.Before (js.flatMap (Joint.lexemes style) ++ next :: rest)
      (forest ++ [stack base links]))
    (opened : ∀ m ∈ links, m.frozen = false) :
    Gives (Grammar.weave (stack base links).id stops assignable) c fun i c' =>
      ∃ more, List.Forall₂ Joint.Shows js more ∧ (∀ m ∈ links ++ more, m.frozen = false) ∧
        i = (arrange base (links ++ more)).freeze.id ∧
        c'.Before (next :: rest) (forest ++ [(arrange base (links ++ more)).freeze]) := by
  induction js generalizing links c with
  | nil =>
    refine (weave_ends links here stop settled opened).imp ?_
    rintro i c' ⟨rfl, later⟩
    exact ⟨[], .nil, by simpa using opened, by simp, by simpa using later⟩
  | cons j js ih =>
    obtain ⟨first, others⟩ := List.forall_mem_cons.mp stands
    rw [List.flatMap_cons, List.append_assoc] at here
    refine weave_joint here within fun c₁ here => ?_
    refine binary_joint here (by simp) (first _ (halts_joints js (within stop))) ?_
    intro l c₂ shown frozen here
    rw [← stack_append_singleton] at here ⊢
    have opened' : ∀ m ∈ links ++ [l], m.frozen = false := by
      rw [List.forall_mem_append, List.forall_mem_singleton]
      exact ⟨opened, frozen⟩
    refine (ih (links ++ [l]) others here opened').imp ?_
    rintro i c' ⟨more, all, opened, rfl, later⟩
    rw [List.append_assoc, List.singleton_append] at opened later ⊢
    exact ⟨l :: more, .cons shown all, opened, rfl, later⟩

/-- A term is read where the expression does not end at once. -/
theorem expression_begins {post : NodeId → Cursor → Prop} (begins : Begins ls)
    (here : c.Before (ls ++ ahead) forest) (within : stops ⊆ closers)
    (first : Gives (Grammar.term stops) c fun i c' =>
      Gives (Grammar.weave i stops assignable) c' post) :
    Gives (Grammar.expression stops assignable) c post := by
  have goesOn : c.current.kind ∉ stops := fun stop => begins.goesOn here (within stop)
  refine Gives.isAtAny.mpr ?_
  rw [if_neg (by simpa using goesOn)]
  exact Gives.bind (.call first) fun i c' later => .call later

/-- A chain is read as its expression. -/
theorem reads_chain (chain : e.isChain = true)
    (first : ∀ ahead, Halts ahead → Stands e.spread.1 (e.spread.1.operand style) ahead)
    (others : ∀ j ∈ e.spread.2, ∀ ahead, Halts ahead →
      Stands j.right (j.right.operand style) ahead) : Reads e (e.lexemes style) := by
  intro stops assignable c next rest forest within stop here
  rw [lexemes_spread style e chain, List.append_assoc] at here
  refine expression_begins (begins_operand ..) here within ?_
  refine (first _ (halts_joints _ (within stop)) here).imp ?_
  rintro i c' ⟨base, rfl, settled, shown, here⟩
  refine (weave_joints [] within stop settled others here (by simp)).imp ?_
  rintro i c'' ⟨links, all, opened, rfl, here⟩
  have whole := shows_arrange e shown all
  exact ⟨_, rfl, Tree.settled_freeze_arrange settled opened, whole.freeze, here⟩

/-- A term is read as a whole expression. -/
theorem reads_of_stands (begins : Begins ls)
    (stands : ∀ next rest, next.kind ∈ closers → Stands e ls (next :: rest)) : Reads e ls := by
  intro stops assignable c next rest forest within stop here
  refine expression_begins begins here within ?_
  refine (stands next rest (within stop) here).imp ?_
  rintro i c' ⟨t, rfl, settled, shown, here⟩
  refine (weave_ends [] here stop settled (by simp)).imp ?_
  rintro i c'' ⟨rfl, here⟩
  exact ⟨t.freeze, by simp, settled.freeze, shown.freeze, by simpa using here⟩

/-- What stands in parentheses may be a target. -/
theorem Reads.heads (reads : Reads e ls) (next : Kind) : Heads e (enclose false ls) next := by
  intro stops c l rest forest post is here more
  simp only [enclose, Bool.false_eq_true, if_false, List.cons_append, List.append_assoc] at here
  refine here.current ?_
  refine (here.shift (by simp)).bind ?_
  rintro token c₁ ⟨-, here⟩
  refine Gives.bind (.call (reads (by decide) (by simp [sign, Kind.written]) here)) ?_
  rintro _ c₂ ⟨t, rfl, settled, shown, here⟩
  refine (here.expect rfl (by simp)).bind ?_
  rintro _ c₃ ⟨-, here⟩
  exact more t.id c₃ ⟨t, rfl, settled, shown, here⟩

theorem Reads.heads_enclose {bare : Bool} (reads : Reads e ls) (next : Kind)
    (heads : bare = true → Heads e ls next) : Heads e (enclose bare ls) next := by
  cases bare with
  | true => exact heads rfl
  | false => exact reads.heads next

theorem Reads.stands_operand (reads : Reads e (e.lexemes style)) (halts : Halts ahead) :
    Stands e (e.operand style) ahead := by
  obtain ⟨l, rest, rfl⟩ : ∃ l rest, ahead = l :: rest := by
    cases halts <;> exact ⟨_, _, rfl⟩
  cases e with
  | atom a =>
    rw [operand, isAtom, enclose, if_pos rfl, lexemes]
    exact stands_atom a halts
  | _ => exact (reads.heads l.kind).stands halts

theorem Reads.operand (reads : Reads e (e.lexemes style)) : Reads e (e.operand style) :=
  reads_of_stands (begins_operand style e) fun _ _ closes =>
    reads.stands_operand (halts_of_closers closes)

theorem reads_ternary {left center right : Expr} (first : Reads left (left.lexemes style))
    (second : Reads center (center.lexemes style)) (third : Reads right (right.lexemes style)) :
    Reads (.ternary left center right) ((Expr.ternary left center right).lexemes style) := by
  intro stops assignable c next rest forest within stop here
  simp only [lexemes, List.append_assoc, List.cons_append] at here
  refine expression_begins (begins_operand style left) here within ?_
  have halts (ls : List Lexeme) : Halts (sign .ternary :: ls) := .other (by decide)
  refine (first.stands_operand (halts _) here).imp ?_
  rintro i c₁ ⟨l, rfl, settled, shownLeft, here⟩
  have inside : Kind.ternary ∉ stops := fun h => absurd (within h) (by decide)
  refine here.current ?_
  rw [if_neg (by simpa [sign, Kind.written] using inside)]
  refine (here.shift (by simp)).bind ?_
  rintro token c₂ ⟨own, here⟩
  refine Gives.bind (.call (second.operand (by decide) (by simp [sign, Kind.written]) here)) ?_
  rintro _ c₃ ⟨m, rfl, -, shownCenter, here⟩
  refine (here.expect rfl (by simp)).bind ?_
  rintro _ c₄ ⟨-, here⟩
  refine Gives.bind (.call (third.operand within stop here)) ?_
  rintro _ c₅ ⟨r, rfl, -, shownRight, here⟩
  have ranked : token.kind.precedence = some 16 := congrArg (·.kind.precedence) own
  refine (here.add forest (.ternaryOp l m r) rfl (by simp [Shape.children])).bind ?_
  intro i c₆ here
  let link : Link := ⟨i, token, false, some m, r, 16, ranked⟩
  refine .call ((weave_ends [link] here stop settled (by simp [link])).imp ?_)
  rintro _ c₇ ⟨rfl, here⟩
  rw [Tree.arrange_singleton] at here ⊢
  have shown : (Expr.ternary left center right).Shows (link.join l link.right) :=
    .ternary own shownLeft shownCenter shownRight
  exact ⟨_, rfl, Tree.settled_freeze_join settled rfl, shown.freeze, here⟩

theorem stands_leading {op : Kind} (known : op ∈ Fixity.leading.operators) {operand : Expr}
    (reads : Reads operand (operand.lexemes style)) (halts : Halts ahead) :
    Stands (.unary .leading op known operand)
      ((Expr.unary .leading op known operand).lexemes style) ahead := by
  intro stops c forest here
  rw [lexemes, List.cons_append] at here
  have goesOn : operand.operand style ++ ahead ≠ [] := by
    obtain ⟨l, ls, same, -⟩ := operand_cons style operand
    simp [same]
  have taken {token : Token} {c' : Cursor} (own : token.lexeme = ⟨op, op.spelling⟩)
      (here : c'.Before (operand.operand style ++ ahead) forest) :
      Gives (do
        let i ← Parse.call (.term stops)
        Parse.add (.unaryOp i .leading) (some token)) c'
        ((Expr.unary .leading op known operand).Reached ahead forest) := by
    refine Gives.bind (.call (reads.stands_operand halts here)) ?_
    rintro _ c'' ⟨t, rfl, -, shown, here⟩
    exact Reached.add (.unaryOp t .leading) here rfl rfl rfl fun _ => .unary own shown
  refine here.current ?_
  have which := known
  simp only [Fixity.operators, List.mem_cons, List.not_mem_nil, or_false] at which
  rcases which with rfl | rfl | rfl | rfl | rfl | rfl
  -- A pointer is written as a product, so its token is given another kind.
  · refine (here.shift goesOn).bind ?_
    rintro star c' ⟨own, here⟩
    have value : star.value = "*" := congrArg Lexeme.value own
    exact taken (congrArg (Lexeme.mk .point) value) here
  all_goals
    refine (here.shift goesOn).bind ?_
    rintro token c' ⟨own, here⟩
    exact taken own here

end Expr
end ScriptSyntax
