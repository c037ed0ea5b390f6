import ScriptSyntax.Proofs.Derivation.Collection

/-! Expressions derive what they stand for. What weaves operators and what applies accesses to an
operand go on with a phrase that was read before. -/
namespace ScriptSyntax.Grammar

open Parse

variable {depth : Nat} {start : Point} {c : Cursor} {s : Scanner} {base : List Token}
  {forest : List Tree}

theorem literalShape?_eq_map {k : Kind} {ids : Shape NodeId} (found : literalShape? k = some ids) :
    ∃ shape : Shape Tree, shape.map Tree.id = ids ∧ shape.children = [] := by
  unfold literalShape? at found
  split at found <;> cases found
  · exact ⟨.intLiteral, rfl, rfl⟩
  · exact ⟨.realLiteral, rfl, rfl⟩
  · exact ⟨.stringLiteral, rfl, rfl⟩
  · exact ⟨.booleanLiteral, rfl, rfl⟩
  · exact ⟨.booleanLiteral, rfl, rfl⟩
  · exact ⟨.nullLiteral, rfl, rfl⟩

theorem atomShape?_eq_map {k : Kind} {ids : Shape NodeId} (found : atomShape? k = some ids) :
    ∃ shape : Shape Tree, shape.map Tree.id = ids ∧ shape.children = [] := by
  rw [atomShape?] at found
  cases literal : literalShape? k with
  | some shape =>
    simp only [literal, Option.orElse_eq_orElse, Option.orElse_some] at found
    exact literalShape?_eq_map (literal.trans found)
  | none =>
    simp only [literal, Option.orElse_eq_orElse, Option.orElse_none] at found
    split at found
    · cases found
      exact ⟨.name, rfl, rfl⟩
    · contradiction

theorem isAtTypeList_sound (here : c.At s base forest) :
    Ensures depth start isAtTypeList c
      fun _ c' => c'.current = c.current ∧ c'.At s base forest := by
  refine (here.peek 1).bind ?_
  rintro first c₁ ⟨same, here⟩
  split
  · exact .pure ⟨same, here⟩
  split
  · refine (here.peek 2).bind ?_
    rintro second c₂ ⟨again, here⟩
    exact .pure ⟨again.trans same, here⟩
  · exact .pure ⟨same, here⟩

theorem isAtInlineTypes_sound {t : Tree} (here : c.At s base (forest ++ [t])) :
    Ensures depth start (isAtInlineTypes t.id) c fun types c' => c'.current = c.current ∧
      (types = true → t.shape = .name ∧ t.frozen = false) ∧ c'.At s base (forest ++ [t]) := by
  refine here.inspect.bind ?_
  rintro profile c₁ ⟨rfl, -, openName⟩
  split
  · next opened =>
    refine (isAtTypeList_sound here).imp ?_
    rintro types c₂ ⟨same, here⟩
    exact ⟨same, fun _ => openName opened, here⟩
  · exact .pure ⟨rfl, by simp, here⟩

theorem checkAssignable_sound (assignable : Bool) :
    Ensures depth start (checkAssignable assignable) c fun _ c' => assignable = true ∧ c' = c := by
  rw [checkAssignable]
  split
  · next allowed => exact .pure ⟨allowed, rfl⟩
  · exact .fail

theorem expression_sound (sound : Sound depth) (here : c.At s base forest) (stops : List Kind)
    (assignable : Bool) :
    Ensures depth start (expression stops assignable) c fun i c' =>
      c'.Has s base forest (.expression stops assignable) i := by
  simp only [expression, ensures_isAtAny]
  split
  · next stop =>
    refine (here.add forest .noOp rfl (by simp [Shape.children])).imp ?_
    rintro i c₁ ⟨same, here⟩
    exact ⟨[], _, rfl, .empty (same ▸ stop), by simpa using here⟩
  · refine (sound.call (.term stops) here).bind ?_
    rintro _ c₁ ⟨ts, t, rfl, term, here⟩
    exact sound.call (.weave t.id stops assignable) ⟨_, _, rfl, .first term, here⟩

theorem binary_sound (sound : Sound depth) {left : NodeId} {stops : List Kind}
    (has : c.Has s base forest (.chain stops) left) (joins : joinsOperands stops c.current.kind)
    (assignable : Bool) :
    Ensures depth start (binary left stops assignable) c fun i c' =>
      c'.Has s base forest (.expression stops assignable) i := by
  obtain ⟨ts, l, rfl, chain, here⟩ := has
  refine here.shift.bind ?_
  rintro op c₁ ⟨rfl, here⟩
  refine (sound.call (.term stops) here).bind ?_
  rintro _ c₂ ⟨us, r, rfl, term, here⟩
  refine (here.add forest (.binaryOp l r) rfl (by simp [Shape.children])).bind ?_
  rintro i c₃ ⟨same, here⟩
  exact sound.call (.weave i stops assignable)
    ⟨_, _, rfl, .binary chain joins (same ▸ term), by simpa using here⟩

theorem weave_sound (sound : Sound depth) {left : NodeId} {stops : List Kind}
    (has : c.Has s base forest (.chain stops) left) (assignable : Bool) :
    Ensures depth start (weave left stops assignable) c fun i c' =>
      c'.Has s base forest (.expression stops assignable) i := by
  have whole := has
  obtain ⟨ts, t, rfl, chain, here⟩ := has
  have settles (ends : endsExpression stops c.current.kind = true) :
      Ensures depth start (settle t.id) c fun i c' =>
        c'.Has s base forest (.expression stops assignable) i := by
    refine here.settle.imp ?_
    rintro _ c₁ ⟨rfl, same, here⟩
    rw [← same] at chain ends
    exact ⟨_, _, rfl, .settled chain ends, here⟩
  simp only [weave, ensures_current]
  split
  · next stop => exact settles (by simp only [endsExpression, stop, Bool.true_or])
  next goesOn =>
  split
  · next assigns =>
    refine (checkAssignable_sound assignable).bind ?_
    rintro _ _ ⟨rfl, rfl⟩
    refine here.settle.bind ?_
    rintro _ c₁ ⟨rfl, same, here⟩
    refine (assignment_sound sound here stops).imp ?_
    rintro i c₂ ⟨-, us, v, value, here⟩
    rw [← same] at chain assigns
    exact ⟨_, _, rfl, .assigned chain assigns value, by simpa using here⟩
  next plain =>
  have joins (operator : c.current.kind.isBinaryOperator = true) :
      joinsOperands stops c.current.kind = true := by
    simp only [joinsOperands, operator, goesOn, plain]
    rfl
  split
  · next less =>
    refine (isAtInlineTypes_sound here).bind ?_
    rintro typed c₁ ⟨same, openName, here⟩
    split
    · next isTyped =>
      obtain ⟨shape, frozen⟩ := openName isTyped
      refine (typeList_sound sound here).bind ?_
      rintro types c₂ ⟨us, _, rfl, list, here⟩
      refine (here.add forest (.declare [] t types) rfl (by simp [Shape.children])).bind ?_
      rintro i c₃ ⟨again, here⟩
      rw [← again] at list
      have inline := Derives.inline (i := i) chain shape frozen list
      simp only [ensures_isAtAny]
      split
      · next assigns =>
        refine (checkAssignable_sound assignable).bind ?_
        rintro _ _ ⟨rfl, rfl⟩
        refine (assignment_sound sound here stops).imp ?_
        rintro j c₄ ⟨-, vs, v, value, here⟩
        exact ⟨_, _, rfl, .declaredAssigned inline assigns value, by simpa using here⟩
      · exact .pure ⟨_, _, rfl, .declared inline, by simpa using here⟩
    · rw [← same] at chain joins less
      exact binary_sound sound ⟨_, _, rfl, chain, here⟩ (joins (less ▸ rfl)) assignable
  next notLess =>
  split
  · next ternary =>
    refine here.shift.bind ?_
    rintro op c₁ ⟨rfl, here⟩
    refine (sound.call (.expression [.colon] false) here).bind ?_
    rintro _ c₂ ⟨us, m, rfl, center, here⟩
    refine (here.expect .colon).bind ?_
    rintro colon c₃ ⟨rfl, isColon, here⟩
    refine (sound.call (.expression stops false) here).bind ?_
    rintro _ c₄ ⟨vs, r, rfl, right, here⟩
    refine (here.add forest (.ternaryOp t m r) rfl (by simp [Shape.children])).bind ?_
    rintro i c₅ ⟨same, here⟩
    exact sound.call (.weave i stops assignable)
      ⟨_, _, rfl, .ternary chain ternary (by simpa using goesOn) center isColon (same ▸ right),
        by simpa using here⟩
  next notTernary =>
  split
  · next operator => exact binary_sound sound whole (joins operator) assignable
  · next other =>
    refine settles ?_
    simp only [endsExpression, goesOn, plain, notTernary, other]
    rfl

theorem leading_sound (sound : Sound depth) (here : c.At s base forest) {stops : List Kind}
    (leads : c.current.kind ∈ leadingOperators) :
    Ensures depth start (leading stops) c fun i c' => c'.Has s base forest (.term stops) i := by
  refine here.shift.bind ?_
  rintro op c₁ ⟨rfl, here⟩
  refine (sound.call (.term stops) here).bind ?_
  rintro _ c₂ ⟨ts, t, rfl, term, here⟩
  refine (here.add forest (.unaryOp t .leading) rfl (by simp [Shape.children])).imp ?_
  rintro i c₃ ⟨same, here⟩
  exact ⟨_, _, rfl, .leading leads (same ▸ term), by simpa using here⟩

/-- An expression in parentheses, of which the first is taken. -/
theorem group_sound (sound : Sound depth) {α : Type} {f : NodeId → Parse α}
    {post : α → Cursor → Prop} {opener : Token} (opens : opener.kind = .parOpen)
    (here : c.At s (base ++ [opener]) forest)
    (rest : ∀ i c', c'.Has s base forest .group i → Ensures depth start (f i) c' post) :
    Ensures depth start (do
      let inner ← call (.expression [.parClose] false)
      let _ ← expect .parClose
      f inner) c post := by
  refine (sound.call (.expression [.parClose] false) here).bind ?_
  rintro _ c₁ ⟨ts, t, rfl, inner, here⟩
  refine (here.expect .parClose).bind ?_
  rintro closer c₂ ⟨rfl, closes, here⟩
  exact rest _ _ ⟨_, _, rfl, .group opens inner closes, by simpa using here⟩

theorem term_sound (sound : Sound depth) (here : c.At s base forest) (stops : List Kind) :
    Ensures depth start (term stops) c fun i c' => c'.Has s base forest (.term stops) i := by
  have applies (i : NodeId) (d : Cursor) (operand : d.Has s base forest .operand i) :
      Ensures depth start (call (.suffix i)) d
        fun i c' => c'.Has s base forest (.term stops) i := by
    refine (sound.call (.suffix i) operand).imp ?_
    rintro _ c' ⟨ts, t, rfl, derives, here⟩
    exact ⟨_, _, rfl, .simple derives, here⟩
  simp only [term, ensures_current]
  split
  · next ids found =>
    obtain ⟨shape, same, leaf⟩ := atomShape?_eq_map found
    refine here.shift.bind ?_
    rintro token c₁ ⟨rfl, here⟩
    refine (here.add forest shape same.symm (by simp [leaf])).bind ?_
    rintro i c₂ ⟨-, here⟩
    rw [← same] at found
    have atom : c₂.Has s base forest .operand i := ⟨_, _, rfl, .atom found, here⟩
    split
    · exact applies i c₂ atom
    · obtain ⟨ts, t, eq, derives, here⟩ := atom
      exact .pure ⟨ts, t, eq, .simple derives, here⟩
  split
  · next paren =>
    refine here.shift.bind ?_
    rintro opener c₁ ⟨rfl, here⟩
    refine group_sound sound paren here ?_
    rintro _ c₂ ⟨ts, t, rfl, group, here⟩
    exact applies _ _ ⟨_, _, rfl, .grouped group, here⟩
  · next multiply =>
    refine here.shift.bind ?_
    rintro star c₁ ⟨rfl, here⟩
    refine (sound.call (.term stops) here).bind ?_
    rintro _ c₂ ⟨ts, t, rfl, term, here⟩
    refine (here.add forest (.unaryOp t .leading) rfl (by simp [Shape.children])).imp ?_
    rintro i c₃ ⟨same, here⟩
    exact ⟨_, _, rfl, .pointer multiply (same ▸ term), by simpa using here⟩
  · next leads => exact leading_sound sound here (by simp [leads, leadingOperators])
  · next leads => exact leading_sound sound here (by simp [leads, leadingOperators])
  · next leads => exact leading_sound sound here (by simp [leads, leadingOperators])
  · next leads => exact leading_sound sound here (by simp [leads, leadingOperators])
  · next leads => exact leading_sound sound here (by simp [leads, leadingOperators])
  · next add =>
    refine here.shift.bind ?_
    rintro op c₁ ⟨rfl, here⟩
    refine (sound.call (.term stops) here).imp ?_
    rintro _ c₂ ⟨ts, t, rfl, term, here⟩
    exact ⟨_, _, rfl, .plus add term, by simpa using here⟩
  split
  · exact construct_sound sound here stops
  split
  · refine (collection_sound sound here).bind ?_
    rintro _ c₁ ⟨ts, t, rfl, collection, here⟩
    exact applies _ _ ⟨_, _, rfl, .container collection, here⟩
  · exact .fail

theorem access_sound (sound : Sound depth) {target : NodeId}
    (has : c.Has s base forest .operand target) :
    Ensures depth start (access target) c fun i c' => c'.Has s base forest .operand i := by
  obtain ⟨ts, t, rfl, operand, here⟩ := has
  refine (here.expect .arrOpen).bind ?_
  rintro opener c₁ ⟨rfl, opens, here⟩
  refine (sound.call (.expression [.colon, .arrClose] false) here).bind ?_
  rintro _ c₂ ⟨us, x, rfl, first, here⟩
  refine (here.accept .colon).bind ?_
  rintro _ c₃ (⟨colon, rfl, here⟩ | ⟨-, rfl, rfl⟩)
  · refine (sound.call (.expression [.colon, .arrClose] false) here).bind ?_
    rintro _ c₄ ⟨vs, z, rfl, stop, here⟩
    refine (step?_sound sound here .arrClose).bind ?_
    rintro _ c₅ ⟨os, o, rfl, step, here⟩
    refine (here.expect .arrClose).bind ?_
    rintro closer c₆ ⟨rfl, closes, here⟩
    refine (here.add forest (.slice t x z o) rfl (by simp [Shape.children])).imp ?_
    rintro i c₇ ⟨-, here⟩
    exact ⟨_, _, rfl, .slice operand opens first colon stop step closes, by simpa using here⟩
  · refine (here.expect .arrClose).bind ?_
    rintro closer c₄ ⟨rfl, closes, here⟩
    refine (here.add forest (.index t x) rfl (by simp [Shape.children])).imp ?_
    rintro i c₅ ⟨-, here⟩
    exact ⟨_, _, rfl, .index operand opens first closes, by simpa using here⟩

theorem property_sound (sound : Sound depth) (here : c.At s base forest) :
    Ensures depth start property c fun i c' => c'.Has s base forest .property i := by
  refine (here.accept .parOpen).bind ?_
  rintro _ c₁ (⟨opens, rfl, here⟩ | ⟨-, rfl, rfl⟩)
  · refine group_sound sound opens here ?_
    rintro _ c₂ ⟨ts, t, rfl, group, here⟩
    exact .pure ⟨_, _, rfl, .groupProperty group, here⟩
  · refine (name_sound here).imp ?_
    rintro _ c₂ ⟨ts, t, rfl, name, here⟩
    exact ⟨_, _, rfl, .nameProperty name, here⟩

theorem rounding_sound {operand : NodeId} (has : c.Has s base forest .operand operand)
    (round : c.current.kind = .round) :
    Ensures depth start (rounding operand) c fun i c' => c'.Has s base forest .operand i := by
  obtain ⟨ts, t, rfl, derives, here⟩ := has
  refine here.shift.bind ?_
  rintro op c₁ ⟨rfl, here⟩
  simp only [ensures_current]
  split
  · next ids found =>
    obtain ⟨shape, same, leaf⟩ := atomShape?_eq_map found
    refine here.shift.bind ?_
    rintro token c₂ ⟨rfl, here⟩
    refine (here.add (forest ++ [t]) shape same.symm (by simp [leaf])).bind ?_
    rintro j c₃ ⟨-, here⟩
    refine (here.add forest (.binaryOp t (.node j shape (some c₁.current) false)) rfl
      (by simp [Shape.children])).bind ?_
    rintro i c₄ ⟨-, here⟩
    refine here.freeze.bind ?_
    rintro _ c₅ ⟨-, here⟩
    rw [← same] at found
    exact .pure ⟨_, _, rfl, .rounding derives round found, by simpa using here⟩
  · refine (here.add forest (.unaryOp t .trailing) rfl (by simp [Shape.children])).imp ?_
    rintro i c₂ ⟨-, here⟩
    exact ⟨_, _, rfl, .trailing derives (by simp [round, trailingOperators]), by simpa using here⟩

theorem get_sound (sound : Sound depth) {operand : NodeId}
    (has : c.Has s base forest .operand operand)
    (dots : c.current.kind = .period ∨ c.current.kind = .optChain) :
    Ensures depth start (do
      let token ← Parse.shift
      let property ← property
      let node ← Parse.add (.get operand property (c.current.kind = .optChain)) (some token)
      call (.suffix node)) c fun i c' => c'.Has s base forest .operand i := by
  obtain ⟨ts, t, rfl, derives, here⟩ := has
  refine here.shift.bind ?_
  rintro dot c₁ ⟨rfl, here⟩
  refine (property_sound sound here).bind ?_
  rintro _ c₂ ⟨us, p, rfl, property, here⟩
  refine (here.add forest (.get t p (c.current.kind = .optChain)) rfl
    (by simp [Shape.children])).bind ?_
  rintro i c₃ ⟨same, here⟩
  exact sound.call (.suffix i)
    ⟨_, _, rfl, .get derives dots (same ▸ property), by simpa using here⟩

theorem trailing_sound (sound : Sound depth) {operand : NodeId}
    (has : c.Has s base forest .operand operand) (trails : c.current.kind ∈ trailingOperators) :
    Ensures depth start (do
      let token ← Parse.shift
      let node ← Parse.add (.unaryOp operand .trailing) (some token)
      call (.suffix node)) c fun i c' => c'.Has s base forest .operand i := by
  obtain ⟨ts, t, rfl, derives, here⟩ := has
  refine here.shift.bind ?_
  rintro op c₁ ⟨rfl, here⟩
  refine (here.add forest (.unaryOp t .trailing) rfl (by simp [Shape.children])).bind ?_
  rintro i c₂ ⟨-, here⟩
  exact sound.call (.suffix i) ⟨_, _, rfl, .trailing derives trails, by simpa using here⟩

theorem suffix_sound (sound : Sound depth) {operand : NodeId}
    (has : c.Has s base forest .operand operand) :
    Ensures depth start (suffix operand) c fun i c' => c'.Has s base forest .operand i := by
  have again (i : NodeId) (d : Cursor) (has : d.Has s base forest .operand i) :
      Ensures depth start (call (.suffix i)) d fun i c' => c'.Has s base forest .operand i :=
    sound.call (.suffix i) has
  simp only [suffix, ensures_current]
  split
  · exact (access_sound sound has).bind again
  · next dot => exact get_sound sound has (.inl dot)
  · next dot => exact get_sound sound has (.inr dot)
  · next opens =>
    obtain ⟨ts, t, rfl, derives, here⟩ := has
    refine here.shift.bind ?_
    rintro opener c₁ ⟨rfl, here⟩
    refine (sound.call (.items [.parClose] (.expression false)) here).bind ?_
    rintro _ c₂ ⟨us, as, rfl, args, here⟩
    refine (here.expect .parClose).bind ?_
    rintro closer c₃ ⟨rfl, closes, here⟩
    refine (here.add forest (.call t as) rfl (by simp [Shape.children])).bind ?_
    rintro i c₄ ⟨-, here⟩
    exact again i c₄ ⟨_, _, rfl, .call derives opens args closes, by simpa using here⟩
  · next trails => exact trailing_sound sound has (by simp [trails, trailingOperators])
  · next trails => exact trailing_sound sound has (by simp [trails, trailingOperators])
  · next trails => exact trailing_sound sound has (by simp [trails, trailingOperators])
  · next bAnd =>
    obtain ⟨ts, t, rfl, derives, here⟩ := has
    refine (here.peek 1).bind ?_
    rintro k c₁ ⟨same, here⟩
    rw [← same] at derives bAnd
    split
    · exact .pure ⟨_, _, rfl, derives, here⟩
    · refine here.shift.bind ?_
      rintro mark c₂ ⟨rfl, here⟩
      refine (here.add forest (.unaryOp t .trailing) rfl (by simp [Shape.children])).bind ?_
      rintro i c₃ ⟨-, here⟩
      exact again i c₃ ⟨_, _, rfl, .deref derives bAnd, by simpa using here⟩
  · next round => exact (rounding_sound has round).bind again
  · exact .pure has

end ScriptSyntax.Grammar
