import ScriptSyntax.Proofs.Derivation.Expression

/-! Statements and directives derive what they stand for. -/
namespace ScriptSyntax.Grammar

open Parse

variable {depth : Nat} {start : Point} {c : Cursor} {s : Scanner} {base : List Token}
  {forest : List Tree}

theorem otherwise?_sound (sound : Sound depth) (here : c.At s base forest) :
    Ensures depth start otherwise? c fun o c' => ∃ ts t, o = Option.map Tree.id t ∧
      Derives .otherwise ts c'.current t.toList ∧ c'.At s (base ++ ts) (forest ++ t.toList) := by
  refine (here.accept .elseKw).bind ?_
  rintro _ c₁ (⟨elseKw, rfl, here⟩ | ⟨-, rfl, rfl⟩)
  · refine (here.expect .direct).bind ?_
    rintro arrow c₂ ⟨-, direct, here⟩
    refine (body_sound sound here).bind ?_
    rintro _ c₃ ⟨ts, b, rfl, body, here⟩
    exact .pure ⟨_, some b, rfl, .otherwise elseKw direct body, by simpa using here⟩
  · exact .pure ⟨_, none, rfl, .noOtherwise, by simpa using here⟩

theorem condition_sound (sound : Sound depth) (here : c.At s base forest) :
    Ensures depth start condition c fun i c' => c'.Has s base forest .group i := by
  refine (here.expect .parOpen).bind ?_
  rintro opener c₁ ⟨-, opens, here⟩
  exact group_sound sound opens here fun i c' has => .pure has

theorem branches_sound (sound : Sound depth) {keyword : Token} (ifKw : keyword.kind = .ifKw)
    (here : c.At s (base ++ [keyword]) forest) :
    Ensures depth start (branches keyword) c fun both c' =>
      c'.Has s base forest .branches both := by
  refine (condition_sound sound here).bind ?_
  rintro _ c₁ ⟨ts, t, rfl, condition, here⟩
  refine (here.expect .direct).bind ?_
  rintro arrow c₂ ⟨-, direct, here⟩
  refine (body_sound sound here).bind ?_
  rintro _ c₃ ⟨us, b, rfl, body, here⟩
  refine (here.add forest (.branch t b) rfl (by simp [Shape.children])).bind ?_
  rintro i c₄ ⟨same, here⟩
  rw [← same] at body
  have branch := Derives.branch (i := i) ifKw condition direct body
  refine (here.accept .elseKw).bind ?_
  rintro _ c₅ (⟨elseKw, rfl, here⟩ | ⟨-, rfl, rfl⟩)
  · refine (here.accept? .ifKw).bind ?_
    rintro _ c₆ (⟨again, rfl, here⟩ | ⟨-, rfl, rfl⟩)
    · have ready : (Rule.branches c₅.current).Ready c₆ s
          (base ++ keyword :: (ts ++ arrow :: (us ++ [c₄.current])))
          (forest ++ [.node i (.branch t b) (some keyword) false]) :=
        ⟨again, by simpa using here⟩
      refine (sound.call (.branches c₅.current) ready).bind ?_
      rintro _ c₇ ⟨vs, ⟨bs, o⟩, rfl, others, here⟩
      exact .pure ⟨_, (_ :: bs, o), rfl, .moreBranches branch elseKw others, by simpa using here⟩
    · refine (here.expect .direct).bind ?_
      rintro arrow' c₇ ⟨-, direct', here⟩
      refine (body_sound sound here).bind ?_
      rintro _ c₈ ⟨vs, e, rfl, otherwise, here⟩
      exact .pure ⟨_, ([_], some e), rfl, .elseBranch branch elseKw direct' otherwise,
        by simpa using here⟩
  · exact .pure ⟨_, ([_], none), rfl, .lastBranch branch, by simpa using here⟩

theorem conditional_sound (sound : Sound depth) (here : c.At s base forest) :
    Ensures depth start conditional c fun i c' => c'.Has s base forest .statement i := by
  refine (here.expect .ifKw).bind ?_
  rintro keyword c₁ ⟨-, ifKw, here⟩
  refine (sound.call (.branches keyword) ⟨ifKw, here⟩).bind ?_
  rintro _ c₂ ⟨_, ⟨bs, o⟩, rfl, branches, later⟩
  obtain ⟨keyword', ts, -, -, -, -, rfl, -, -⟩ := branches.exists_branch
  obtain rfl := here.eq_of_taken later
  replace here := later
  refine (here.add forest (.conditional bs o) rfl (by simp [Shape.children])).imp ?_
  rintro i c₃ ⟨same, here⟩
  exact ⟨_, _, rfl, .conditional (same ▸ branches) ifKw, by simpa using here⟩

theorem sections_sound (sound : Sound depth) (here : c.At s base forest) :
    Ensures depth start sections c fun ss c' => c'.Has s base forest .sections ss := by
  refine (sound.call (.items [.colon, .parClose] (.expression true)) here).bind ?_
  rintro _ c₁ ⟨ts, rs, rfl, items, here⟩
  refine (here.accept .colon).bind ?_
  rintro _ c₂ (⟨colon, rfl, here⟩ | ⟨-, rfl, rfl⟩)
  · refine (sound.call .sections here).bind ?_
    rintro _ c₃ ⟨us, ss, rfl, others, here⟩
    exact .pure ⟨_, rs :: ss, rfl, .moreSections items colon others, by simpa using here⟩
  · exact .pure ⟨_, [rs], rfl, .lastSection items, by simpa using here⟩

theorem children_ofSections {ss : List (List Tree)} (few : ss.length ≤ 3) (body : Tree)
    (otherwise : Option Tree) :
    (Shape.ofSections ss body otherwise).children = ss.flatten ++ body :: otherwise.toList := by
  match ss with
  | [] | [_] | [_, _] | [_, _, _] => simp [Shape.ofSections, Shape.children]
  | _ :: _ :: _ :: _ :: _ =>
    simp only [List.length_cons] at few
    omega

theorem map_ofSections (ss : List (List Tree)) (body : Tree) (otherwise : Option Tree) :
    (match ss.map (·.map Tree.id) with
      | [conditions] => Shape.loop [] conditions [] body.id (otherwise.map Tree.id)
      | init :: conditions :: steps =>
        .loop init conditions (steps.headD []) body.id (otherwise.map Tree.id)
      | [] => .loop [] [] [] body.id (otherwise.map Tree.id)) =
      (Shape.ofSections ss body otherwise).map Tree.id := by
  match ss with
  | [] | [_] | [_, _] | _ :: _ :: _ :: _ => rfl

theorem loop_sound (sound : Sound depth) (here : c.At s base forest) :
    Ensures depth start loop c fun i c' => c'.Has s base forest .statement i := by
  refine (here.expect .loopKw).bind ?_
  rintro keyword c₁ ⟨-, loop, here⟩
  refine (here.expect .parOpen).bind ?_
  rintro opener c₂ ⟨-, opens, here⟩
  refine (sound.call .sections here).bind ?_
  rintro _ c₃ ⟨ts, ss, rfl, sections, here⟩
  split
  · exact .fail
  next few =>
  have few : ss.length ≤ 3 := by simpa [Yield.ids] using few
  refine (here.expect .parClose).bind ?_
  rintro closer c₄ ⟨rfl, closes, here⟩
  refine (here.expect .direct).bind ?_
  rintro arrow c₅ ⟨-, direct, here⟩
  refine (body_sound sound here).bind ?_
  rintro _ c₆ ⟨us, b, rfl, body, here⟩
  refine (otherwise?_sound sound here).bind ?_
  rintro _ c₇ ⟨os, o, rfl, otherwise, here⟩
  refine (here.add forest (.ofSections ss b o) (map_ofSections ss b o)
    (by simp [children_ofSections few])).imp ?_
  rintro i c₈ ⟨same, here⟩
  exact ⟨_, _, rfl, .loop loop opens sections few closes direct body (same ▸ otherwise),
    by simpa using here⟩

theorem cases_sound (sound : Sound depth) (here : c.At s base forest) :
    Ensures depth start cases c fun ids c' => c'.Has s base forest .cases ids := by
  simp only [cases, ensures_isAt, decide_eq_true_eq]
  split
  · exact .pure ⟨[], [], rfl, .noCases, by simpa using here⟩
  rw [ensures_isAt]
  refine (here.expectAny [.caseKw, .defaultKw]).bind ?_
  rintro label c₁ ⟨rfl, labels, here⟩
  have finish (d : Cursor) (ts : List Token) (v : Option Tree)
      (arm : ∀ {us rest m next cs b i}, d.current.kind = .colon →
        Derives (.block [.caseKw, .defaultKw, .scopeClose]) us m b →
        Derives .cases rest next cs →
        Derives .cases (c.current :: ts ++ d.current :: us ++ rest) next
          (.node i (.caseArm v b) (some c.current) false :: cs))
      (here : d.At s (base ++ [c.current] ++ ts) (forest ++ v.toList)) :
      Ensures depth start (do
        let _ ← expect .colon
        let body ← block [.caseKw, .defaultKw, .scopeClose]
        let first ← Parse.add (.caseArm (v.map Tree.id) body) (some c.current)
        return first :: (← call .cases)) d fun ids c' => c'.Has s base forest .cases ids := by
    refine (here.expect .colon).bind ?_
    rintro colon c₂ ⟨rfl, isColon, here⟩
    refine (block_sound sound here [.caseKw, .defaultKw, .scopeClose]).bind ?_
    rintro _ c₃ ⟨us, b, rfl, block, here⟩
    refine (here.add forest (.caseArm v b) rfl (by simp [Shape.children])).bind ?_
    rintro i c₄ ⟨-, here⟩
    refine (sound.call .cases here).bind ?_
    rintro _ c₅ ⟨rest, cs, rfl, others, here⟩
    exact .pure ⟨_, _ :: cs, rfl, arm isColon block others, by simpa using here⟩
  split
  · next valued =>
    refine (sound.call (.expression [.colon] false) here).map.bind ?_
    rintro _ c₂ ⟨_, rfl, ts, v, rfl, value, here⟩
    exact finish c₂ ts (some v)
      (fun isColon => .valueCase (of_decide_eq_true valued) value isColon) here
  · next unvalued =>
    have default : c.current.kind = .defaultKw := by
      simpa [unvalued] using labels
    exact finish c₁ [] none (fun isColon => .defaultCase default isColon) (by simpa using here)

theorem switch_sound (sound : Sound depth) (here : c.At s base forest) :
    Ensures depth start switch c fun i c' => c'.Has s base forest .statement i := by
  refine (here.expect .switchKw).bind ?_
  rintro keyword c₁ ⟨-, switch, here⟩
  refine (condition_sound sound here).bind ?_
  rintro _ c₂ ⟨ts, t, rfl, subject, here⟩
  refine (here.expect .direct).bind ?_
  rintro arrow c₃ ⟨-, direct, here⟩
  refine (here.expect .scopeOpen).bind ?_
  rintro opener c₄ ⟨-, opens, here⟩
  refine (sound.call .cases here).bind ?_
  rintro _ c₅ ⟨us, cs, rfl, arms, here⟩
  refine (here.expect .scopeClose).bind ?_
  rintro closer c₆ ⟨rfl, closes, here⟩
  refine (otherwise?_sound sound here).bind ?_
  rintro _ c₇ ⟨os, o, rfl, otherwise, here⟩
  refine (here.add forest (.switch t cs o) rfl (by simp [Shape.children])).imp ?_
  rintro i c₈ ⟨same, here⟩
  exact ⟨_, _, rfl, .switch switch subject direct opens arms closes (same ▸ otherwise),
    by simpa using here⟩

theorem catches_sound (sound : Sound depth) (here : c.At s base forest) :
    Ensures depth start catches c fun ids c' => c'.Has s base forest .catches ids := by
  refine (here.accept? .catchKw).bind ?_
  rintro _ c₁ (⟨catchKw, rfl, here⟩ | ⟨-, rfl, rfl⟩)
  · refine (declaration_sound sound here true).bind ?_
    rintro _ c₂ ⟨ts, t, rfl, declaration, here⟩
    refine (bracedBlock_sound sound here).bind ?_
    rintro _ c₃ ⟨us, b, rfl, braced, here⟩
    refine (here.add forest (.catchArm t b) rfl (by simp [Shape.children])).bind ?_
    rintro i c₄ ⟨-, here⟩
    refine (sound.call .catches here).bind ?_
    rintro _ c₅ ⟨rest, cs, rfl, others, here⟩
    exact .pure ⟨_, _ :: cs, rfl, .moreCatches catchKw declaration braced others,
      by simpa using here⟩
  · exact .pure ⟨[], [], rfl, .noCatches, by simpa using here⟩

theorem guarded_sound (sound : Sound depth) (here : c.At s base forest) :
    Ensures depth start guarded c fun i c' => c'.Has s base forest .statement i := by
  refine (here.expect .tryKw).bind ?_
  rintro keyword c₁ ⟨-, tryKw, here⟩
  refine (bracedBlock_sound sound here).bind ?_
  rintro _ c₂ ⟨ts, b, rfl, braced, here⟩
  refine (sound.call .catches here).bind ?_
  rintro _ c₃ ⟨us, cs, rfl, catches, here⟩
  refine (otherwise?_sound sound here).bind ?_
  rintro _ c₄ ⟨os, o, rfl, otherwise, here⟩
  refine (here.add forest (.guarded b cs o) rfl (by simp [Shape.children])).imp ?_
  rintro i c₅ ⟨same, here⟩
  exact ⟨_, _, rfl, .guarded tryKw braced catches (same ▸ otherwise), by simpa using here⟩

theorem plainStatement_sound (sound : Sound depth) (here : c.At s base forest) :
    Ensures depth start plainStatement c fun i c' => c'.Has s base forest .plain i := by
  have word {ids : Shape NodeId} (shape : Shape Tree) (same : ids = shape.map Tree.id)
      (member : (c.current.kind, shape) ∈ wordShapes) (leaf : shape.children = []) :
      Ensures depth start (do Parse.add ids (some (← Parse.shift))) c fun i c' =>
        c'.Has s base forest .plain i := by
    refine here.shift.bind ?_
    rintro keyword c₁ ⟨rfl, here⟩
    refine (here.add forest shape same (by simp [leaf])).imp ?_
    rintro i c₂ ⟨-, here⟩
    exact ⟨_, _, rfl, .word member, here⟩
  simp only [plainStatement, ensures_current]
  split
  · next returnKw =>
    refine here.shift.bind ?_
    rintro keyword c₁ ⟨rfl, here⟩
    refine (sound.call (.expression [.eol] false) here).bind ?_
    rintro _ c₂ ⟨ts, t, rfl, value, here⟩
    rw [if_pos returnKw]
    refine (here.add forest (.returnStep t) rfl (by simp [Shape.children])).imp ?_
    rintro i c₃ ⟨same, here⟩
    exact ⟨_, _, rfl, .returned returnKw (same ▸ value), by simpa using here⟩
  · next deferKw =>
    refine here.shift.bind ?_
    rintro keyword c₁ ⟨rfl, here⟩
    refine (sound.call (.expression [.eol] false) here).bind ?_
    rintro _ c₂ ⟨ts, t, rfl, value, here⟩
    rw [if_neg (by simp [deferKw])]
    refine (here.add forest (.deferStep t) rfl (by simp [Shape.children])).imp ?_
    rintro i c₃ ⟨same, here⟩
    exact ⟨_, _, rfl, .deferred deferKw (same ▸ value), by simpa using here⟩
  · next passKw => exact word .pass rfl (by simp [passKw, wordShapes]) rfl
  · next continueKw => exact word .continueStep rfl (by simp [continueKw, wordShapes]) rfl
  · next breakKw => exact word .breakStep rfl (by simp [breakKw, wordShapes]) rfl
  · next eol =>
    refine (here.add forest .noOp rfl (by simp [Shape.children])).imp ?_
    rintro i c₁ ⟨same, here⟩
    exact ⟨[], _, rfl, .nothing (same ▸ eol), by simpa using here⟩
  split
  · refine (declaration_sound sound here false).bind ?_
    rintro _ c₁ ⟨ts, t, rfl, declaration, here⟩
    simp only [ensures_isAtAny]
    split
    · refine (assignment_sound sound here [.eol]).imp ?_
      rintro i c₂ ⟨assigns, us, v, value, here⟩
      exact ⟨_, .ofAssignment i t v c₁.current, rfl,
        .bindingStatement (.bound declaration assigns value), by simpa using here⟩
    · exact .pure ⟨_, _, rfl, .bindingStatement (.bare declaration), here⟩
  · refine (sound.call (.expression [.eol] true) here).imp ?_
    rintro _ c₁ ⟨ts, t, rfl, value, here⟩
    exact ⟨_, _, rfl, .expressionStatement value, here⟩

theorem statement_sound (sound : Sound depth) (here : c.At s base forest) :
    Ensures depth start statement c fun i c' => c'.Has s base forest .statement i := by
  refine here.announce.bind ?_
  rintro _ c₁ ⟨-, here⟩
  simp only [ensures_current]
  split
  · simp only [directive, ensures_current]
    split
    · exact conditional_sound sound here
    · exact loop_sound sound here
    · exact switch_sound sound here
    · exact guarded_sound sound here
    · exact .fail
  · refine (plainStatement_sound sound here).bind ?_
    rintro _ c₂ ⟨ts, t, rfl, plain, here⟩
    refine (here.expect .eol).bind ?_
    rintro semi c₃ ⟨rfl, eol, here⟩
    exact .pure ⟨_, _, rfl, .plain plain eol, by simpa using here⟩

end ScriptSyntax.Grammar

namespace ScriptSyntax

open Grammar

/-- What a rule does by its body, given that the calls it makes are sound. -/
theorem Rule.body_sound {depth : Nat} (sound : Sound depth) {start : Point} {y : Yield}
    (rule : Rule y) {c : Cursor} {s : Scanner} {base : List Token} {forest : List Tree}
    (ready : rule.Ready c s base forest) :
    Ensures depth start rule.body c fun value c' => c'.Has s base forest rule.phrase value := by
  cases rule with
  | statement => exact statement_sound sound ready
  | statements stops => exact statements_sound sound ready stops
  | expression stops assignable => exact expression_sound sound ready stops assignable
  | weave left stops assignable => exact weave_sound sound ready assignable
  | term stops => exact term_sound sound ready stops
  | suffix operand => exact suffix_sound sound ready
  | typeTerm => exact typeTerm_sound sound ready
  | typeTerms => exact typeTerms_sound sound ready
  | modifiers => exact modifiers_sound sound ready
  | items stops item => exact items_sound sound ready stops item
  | entries named => exact entries_sound sound ready named
  | sections => exact sections_sound sound ready
  | branches keyword => exact branches_sound sound ready.1 ready.2
  | cases => exact cases_sound sound ready
  | catches => exact catches_sound sound ready
  | instances => exact instances_sound sound ready
  | members => exact members_sound sound ready

theorem sound (depth : Nat) : Sound depth := by
  induction depth with
  | zero =>
    intro y rule c c' s base forest value _ run
    simp [Rule.run] at run
  | succ depth ih =>
    intro y rule c c' s base forest value ready run
    exact (Rule.body_sound ih rule ready).result value c' run

/-- What a rule does by its body from where it may start, it may do there. -/
theorem Rule.Ready.apt {y : Yield} {rule : Rule y} {c : Cursor} {s : Scanner} {base : List Token}
    {forest : List Tree} (ready : rule.Ready c s base forest) (depth : Nat) :
    rule.body.Apt depth c := by
  have ensures : Ensures depth c.point rule.body c _ := Rule.body_sound (sound depth) rule ready
  exact ensures.apt

end ScriptSyntax
