import ScriptSyntax.Proofs.Derivation.Run

/-! Types, declarations and assignments derive what they stand for. -/
namespace ScriptSyntax.Grammar

open Parse

variable {depth : Nat} {start : Point} {c : Cursor} {s : Scanner} {base : List Token}
  {forest : List Tree}

theorem typesUntil_sound (sound : Sound depth) (here : c.At s base forest) (close : Kind) :
    Ensures depth start (typesUntil close) c fun types c' =>
      c'.current.kind = close ∧ c'.Has s base forest .types types := by
  refine (sound.call .typeTerms here).bind fun types c₁ has => ?_
  simp only [ensures_isAt, decide_eq_true_eq]
  split
  · next found => exact .pure ⟨found, has⟩
  · exact .fail

theorem typeTerm_sound (sound : Sound depth) (here : c.At s base forest) :
    Ensures depth start typeTerm c fun type c' => c'.Has s base forest .type type := by
  refine (here.mark .multiply).bind ?_
  rintro _ c₁ ⟨star, rfl, multiply, here⟩
  simp only [ensures_current]
  split
  · next container opens =>
    refine here.shift.bind ?_
    rintro opener c₂ ⟨rfl, here⟩
    refine (typesUntil_sound sound here container.closer).bind ?_
    rintro _ c₃ ⟨closes, ts, elements, rfl, types, here⟩
    refine (here.expect container.closer).bind ?_
    rintro closer c₄ ⟨rfl, -, here⟩
    exact .pure ⟨_, _, rfl, .containerType multiply opens types closes, by simpa using here⟩
  · next container _ abbreviates =>
    refine here.shift.bind ?_
    rintro token c₂ ⟨rfl, here⟩
    exact .pure ⟨_, _, rfl, .shorthandType multiply abbreviates, by simpa using here⟩
  · split
    · next names =>
      refine here.shift.bind ?_
      rintro token c₂ ⟨rfl, here⟩
      exact .pure ⟨_, _, rfl, .namedType multiply names, by simpa using here⟩
    · exact .fail

theorem typeTerms_sound (sound : Sound depth) (here : c.At s base forest) :
    Ensures depth start typeTerms c fun types c' => c'.Has s base forest .types types := by
  refine (sound.call .typeTerm here).bind ?_
  rintro _ c₁ ⟨ts, first, rfl, type, here⟩
  refine (here.accept .comma).bind ?_
  rintro _ c₂ (⟨comma, rfl, here⟩ | ⟨-, rfl, rfl⟩)
  · refine (sound.call .typeTerms here).bind ?_
    rintro _ c₃ ⟨us, rest, rfl, types, here⟩
    exact .pure ⟨_, _, rfl, .moreTypes type comma types, by simpa using here⟩
  · exact .pure ⟨_, _, rfl, .lastType type, here⟩

theorem typeList_sound (sound : Sound depth) (here : c.At s base forest) :
    Ensures depth start typeList c fun types c' => c'.Has s base forest .typeList types := by
  refine (here.expect .lessThan).bind ?_
  rintro opener c₁ ⟨-, opens, here⟩
  refine (typesUntil_sound sound here .greaterThan).bind ?_
  rintro _ c₂ ⟨-, ts, types, rfl, derives, here⟩
  refine (here.expect .greaterThan).bind ?_
  rintro closer c₃ ⟨rfl, closes, here⟩
  exact .pure ⟨_, _, rfl, .typeList opens derives closes, by simpa using here⟩

theorem modifiers_sound (sound : Sound depth) (here : c.At s base forest) :
    Ensures depth start modifiers c fun tokens c' => c'.Has s base forest .modifiers tokens := by
  simp only [modifiers, ensures_current]
  split
  · next modifier =>
    refine here.shift.bind ?_
    rintro first c₁ ⟨rfl, here⟩
    refine (sound.call .modifiers here).bind ?_
    rintro _ c₂ ⟨ts, rest, rfl, derives, here⟩
    cases derives with
    | modifiers all =>
      refine .pure ⟨_, _, rfl, .modifiers ?_, by simpa using here⟩
      exact List.forall_mem_cons.mpr ⟨modifier, all⟩
  · exact .pure ⟨_, [], rfl, .modifiers (by simp), by simpa using here⟩

/-- A value is assigned to the last tree. -/
theorem assignment_sound (sound : Sound depth) {t : Tree} (here : c.At s base (forest ++ [t]))
    (stops : List Kind) :
    Ensures depth start (assignment t.id stops) c fun i c' =>
      assigners.contains c.current.kind = true ∧ ∃ us v,
        Derives (.expression stops false) us c'.current v ∧
        c'.At s (base ++ c.current :: us) (forest ++ [.ofAssignment i t v c.current]) := by
  simp only [assignment, ensures_isAt]
  refine (here.expectAny assigners).bind ?_
  rintro token c₁ ⟨rfl, assigns, here⟩
  refine (sound.call (.expression stops false) here).bind ?_
  rintro _ c₂ ⟨us, v, rfl, value, here⟩
  refine (here.add forest (.assignment t v _) rfl (by simp [Shape.children])).imp ?_
  rintro i c₃ ⟨same, here⟩
  exact ⟨assigns, us, v, same ▸ value, by simpa [Tree.ofAssignment] using here⟩

theorem Derives.eq_of_modifiers {ts ms : List Token} {next : Token}
    (derives : Derives .modifiers ts next ms) : ts = ms := by
  cases derives with
  | modifiers => rfl

theorem declaration_sound (sound : Sound depth) (here : c.At s base forest) (typed : Bool) :
    Ensures depth start (declaration typed) c fun i c' =>
      c'.Has s base forest (.declaration typed) i := by
  refine (here.mark? .atSign).bind ?_
  rintro mark c₁ ⟨annotates, here⟩
  refine (sound.call .modifiers here).bind ?_
  rintro _ c₂ ⟨ms, _, rfl, modifiers, here⟩
  obtain rfl := Derives.eq_of_modifiers modifiers
  refine (here.expect .var).bind ?_
  rintro token c₃ ⟨rfl, var, here⟩
  refine (here.add forest .name rfl (by simp [Shape.children])).bind ?_
  rintro j c₄ ⟨-, here⟩
  simp only [ensures_isAt]
  split
  · refine (typeList_sound sound here).bind ?_
    rintro types c₅ ⟨ts, _, rfl, list, here⟩
    refine (here.add forest (.declare ms (.ofName j c₂.current) types) rfl
      (by simp [Shape.children, Tree.ofName])).imp ?_
    rintro i c₆ ⟨same, here⟩
    exact ⟨_, _, rfl, .typed annotates modifiers var (same ▸ list), by simpa using here⟩
  · next untyped =>
    rw [Bool.or_eq_true, not_or, Bool.not_eq_true, Bool.not_eq_true] at untyped
    rw [untyped.1]
    simp only [ensures_isAtAny]
    split
    · next accesses =>
      rw [Bool.and_eq_true, List.isEmpty_iff] at accesses
      obtain ⟨rfl, -⟩ := accesses
      have operand : c₄.Has s (base ++ mark.toList) forest .operand j := by
        refine ⟨[c₂.current], .ofName j c₂.current, rfl, .atom ?_,
          by simpa [Tree.ofName] using here⟩
        rw [var]
        rfl
      refine (sound.call (.suffix j) operand).imp ?_
      rintro _ c₅ ⟨ts, t, rfl, derives, here⟩
      exact ⟨_, _, rfl, .access annotates derives, by simpa using here⟩
    · refine (here.add forest (.declare ms (.ofName j c₂.current) []) rfl
        (by simp [Shape.children, Tree.ofName])).imp ?_
      rintro i c₅ ⟨-, here⟩
      exact ⟨_, _, rfl, .untyped annotates modifiers var, by simpa using here⟩

end ScriptSyntax.Grammar
