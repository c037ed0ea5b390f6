import ScriptSyntax.Proofs.Bodies.Approach

/-! All rules of the grammar heed the keywords that bodies belong to. -/
namespace ScriptSyntax

open Parse

attribute [local simp] Rule.isTyping

namespace Kind

variable {k : Kind} {container : Container}

theorem stage?_of_ofOpener? (opens : Container.ofOpener? k = some container) : k.stage? = none :=
  stage?_eq_none (P := Grammar.opensContainer) rfl (by simp [Grammar.opensContainer, opens])

theorem stage?_of_ofShorthand? (short : Container.ofShorthand? k = some container) :
    k.stage? = none :=
  stage?_eq_none (P := Grammar.abbreviatesContainer) rfl
    (by simp [Grammar.abbreviatesContainer, short])

theorem stage?_of_atomShape? {shape : Shape NodeId} (atom : Grammar.atomShape? k = some shape) :
    k.stage? = none :=
  stage?_eq_none (P := fun k => (Grammar.atomShape? k).isSome) rfl (by simp [atom])

end Kind

namespace Grammar

variable {kind : Kind} {clear : Nat} (stops : List Kind)

/-! Blocks and declarations. -/

theorem statements_wary : (statements stops).Wary kind clear fun _ _ _ => True := by
  simp [statements, endOfInput]

theorem bracedBlock_wary : bracedBlock.Wary kind clear fun _ _ _ => True := by
  simp +decide [bracedBlock, block]

theorem body_wary : body.Wary kind clear fun _ _ _ => True := by
  simp [body, isAtBrace, bracedBlock_wary]

theorem modifiers_wary : modifiers.Wary kind clear fun _ _ _ => True := by
  rw [modifiers, wary_bind, wary_current, wary_ite]
  split
  · next modifies => simp [Kind.stage?_eq_none (P := Kind.isModifier) rfl modifies]
  · trivial

theorem assignment_wary (target : NodeId) :
    (assignment target stops).Wary kind clear fun _ _ _ => True := by
  have plain : kind = .assign ∨ kind = .castAssign → kind.stage? = none := by
    rintro (rfl | rfl) <;> rfl
  simpa +decide [assignment, assigners] using plain

/-! Collections. -/

theorem list_wary (linked : Bool) (plain : kind.stage? = none) :
    (list linked).Wary kind clear fun _ _ _ => True := by
  simp +decide [list, plain, step?, arguments]

theorem set_wary (plain : kind.stage? = none) : set.Wary kind clear fun _ _ _ => True := by
  simp +decide [set, arguments, plain]

theorem isAtNamedKey_wary : isAtNamedKey.Wary kind clear fun named k _ =>
    named = true → k = .var := by
  by_cases name : kind = .var <;> simp +decide [isAtNamedKey, name]

theorem key_wary (named : Bool) : (key named).Wary kind clear fun _ _ _ => True := by
  cases named with
  | false => simp [key]
  | true =>
    refine wary_bind.mpr (isAtNamedKey_wary.imp ?_)
    rintro (- | -) k n found
    · trivial
    · simp +decide [found rfl]

theorem entries_wary (named : Bool) : (entries named).Wary kind clear fun _ _ _ => True := by
  rw [entries, wary_bind, wary_isAt, wary_ite]
  split
  · trivial
  · refine (key_wary named).andThen fun key k n => ?_
    simp +decide

theorem map_wary : map.Wary kind clear fun _ _ _ => True := by
  refine Wary.andThen (by simp +decide) fun token k n => ?_
  refine Wary.andThen (isAtNamedKey_wary.imp fun _ _ _ _ => trivial) fun named k n => ?_
  simp +decide

theorem graph_wary (directed : Bool) (plain : kind.stage? = none) :
    (graph directed).Wary kind clear fun _ _ _ => True := by
  cases directed <;> simp +decide [graph, plain]

theorem collection_wary : collection.Wary kind clear fun _ _ _ => True := by
  simp only [collection, wary_bind, wary_current]
  split
  · next short => simp [Kind.stage?_of_ofShorthand? short]
  · next opens => exact list_wary false (Kind.stage?_of_ofOpener? opens)
  · next opens => exact list_wary true (Kind.stage?_of_ofOpener? opens)
  · next opens => exact set_wary (Kind.stage?_of_ofOpener? opens)
  · exact map_wary
  · next opens => exact graph_wary false (Kind.stage?_of_ofOpener? opens)
  · next opens => exact graph_wary true (Kind.stage?_of_ofOpener? opens)
  · trivial

/-! Expressions. -/

/-- The second token ahead is looked at only where the first one is not blunt. -/
theorem isAtTypeList_wary (sharp : kind.isBlunt = false) :
    isAtTypeList.Wary kind clear fun _ k _ => k = kind := by
  have known {first : Kind}
      (opens : (decide (first = .multiply) || opensContainer first) = true) :
      first.isBlunt = false := by
    have checked := Kind.of_all (P := fun k => k = .multiply || opensContainer k)
      (Q := fun k => !k.isBlunt) (by decide) opens
    simpa using checked
  refine wary_bind.mpr (wary_peek.mpr ⟨sharp, by omega, fun first => ?_⟩)
  rw [wary_ite]
  split
  · rfl
  rw [wary_ite]
  split
  · next opens =>
    rw [known opens, if_neg Bool.false_ne_true]
    exact wary_bind.mpr (wary_peek.mpr ⟨sharp, by omega, fun _ => rfl⟩)
  · rfl

theorem isAtInlineTypes_wary (left : NodeId) (sharp : kind.isBlunt = false) :
    (isAtInlineTypes left).Wary kind clear fun _ k _ => k = kind := by
  simp [isAtInlineTypes, isAtTypeList_wary sharp]

theorem expression_wary (assignable : Bool) :
    (expression stops assignable).Wary kind clear fun _ _ _ => True := by
  simp [expression]

theorem binary_wary (left : NodeId) (assignable : Bool) (plain : kind.stage? = none) :
    (binary left stops assignable).Wary kind clear fun _ _ _ => True := by
  simp [binary, plain]

theorem rounding_wary (operand : NodeId) (plain : kind.stage? = none) :
    (rounding operand).Wary kind clear fun _ _ _ => True := by
  simp only [rounding, wary_bind, wary_shift, wary_current]
  refine ⟨plain, fun token k => ?_⟩
  split
  · next atom => simp [Kind.stage?_of_atomShape? atom]
  · simp

theorem suffix_wary (operand : NodeId) : (suffix operand).Wary kind clear fun _ _ _ => True := by
  rw [suffix, wary_bind, wary_current]
  split
  · simp +decide [access, step?]
  · simp +decide [property, name]
  · simp +decide [property, name]
  · simp +decide [arguments]
  · simp +decide
  · simp +decide
  · simp +decide
  · simp +decide
  · exact (rounding_wary operand rfl).andThen fun node k n => by simp
  · trivial

/-! Types. -/

section Types

variable {α : Type} {strict : Bool}

theorem heeds_typeList {g : List TypeTerm → Parse α}
    (rest : ∀ types k, (g types).Heeds strict k 0) : (typeList >>= g).Heeds strict kind clear := by
  simp only [typeList, LawfulMonad.bind_assoc, LawfulMonad.pure_bind]
  refine Wary.heeds_then (by simp +decide) fun opener k n => ?_
  refine heeds_typesUntil (by decide) fun types k => ?_
  exact heeds_expect (fun stage opens => by cases opens) fun closer k => rest types k

theorem heeds_declaration (typed : Bool) {g : NodeId → Parse α}
    (rest : ∀ id k n, (g id).Heeds strict k n) :
    (declaration typed >>= g).Heeds strict kind clear := by
  simp only [declaration, LawfulMonad.bind_assoc]
  refine Wary.heeds_then (by simp +decide) fun mark k n => ?_
  refine Wary.heeds_then (by simp) fun modifiers k n => ?_
  refine Wary.heeds_then (by simp +decide) fun token k n => ?_
  refine Wary.heeds_then (by simp) fun name k n => ?_
  refine Wary.heeds_then (by simp +decide) fun typing k n => ?_
  split
  · rw [LawfulMonad.bind_assoc]
    exact heeds_typeList fun types k => Wary.heeds_then (by simp) rest
  · exact Wary.heeds_then (by simp) rest

theorem items_heeds (item : Item) : (items stops item).Heeds strict kind clear := by
  refine Wary.heeds_then (by simp) fun ended k n => ?_
  split
  · trivial
  have others (first : NodeId) (k : Kind) (n : Nat) : (do
      if ← accept .comma then return first :: (← call (.items stops item))
      else return [first] : Parse (List NodeId)).Heeds strict k n :=
    Wary.heeds (by simp +decide)
  cases item with
  | parameter =>
    rw [Grammar.item, parameter, LawfulMonad.bind_assoc]
    refine heeds_declaration false fun declaration k n => ?_
    exact Wary.heeds_then (by simp [assignment_wary]) others
  | expression assignable => exact Wary.heeds_then (by simp [Grammar.item]) others
  | name => exact Wary.heeds_then (by simp +decide [Grammar.item, name]) others
  | edge directed =>
    refine Wary.heeds_then ?_ others
    cases directed <;> simp +decide [Grammar.item, edge]

theorem weave_heeds (left : NodeId) (assignable : Bool) :
    (weave left stops assignable).Heeds strict kind clear := by
  refine heeds_current ?_
  split
  · exact Wary.heeds (by simp)
  split
  · exact Wary.heeds (by cases assignable <;> simp [checkAssignable, assignment_wary])
  split
  · next less =>
    refine ((isAtInlineTypes_wary left (less ▸ rfl)).imp ?_).heeds_bind
    rintro (- | -) k n rfl
    · exact (binary_wary stops left assignable (less ▸ rfl)).heeds
    · refine heeds_typeList fun types k => Wary.heeds ?_
      cases assignable <;> simp [checkAssignable, assignment_wary]
  split
  · next ternary => exact Wary.heeds (by simp +decide [ternary])
  split
  · next joins =>
    exact (binary_wary stops left assignable (Kind.stage?_eq_none rfl joins)).heeds
  · exact Wary.heeds (by simp)

end Types

/-! Constructs. -/

section Constructs

variable {strict : Bool}

theorem heritage_approaches {α : Type} {f : List NodeId × List NodeId → Parse α}
    (braces : ∀ names, Approaches .braces (f names)) : Approaches .header (heritage >>= f) := by
  simp only [heritage, LawfulMonad.bind_assoc, LawfulMonad.pure_bind]
  refine .opener fun opener => .inner rfl fun supers => .colon fun more => ?_
  cases more <;> simp only [Bool.false_eq_true, if_false, if_true, LawfulMonad.bind_assoc,
    LawfulMonad.pure_bind]
  · exact .closer fun closer => .arrow fun arrow => braces _
  · exact .inner rfl fun interfaces => .closer fun closer => .arrow fun arrow => braces _

theorem heritage_wary : heritage.Wary kind clear fun _ _ _ => True := by
  simp +decide [heritage]

theorem members_wary : members.Wary kind clear fun _ _ _ => True := by
  simp [members, endOfInput]

theorem instances_wary : instances.Wary kind clear fun _ _ _ => True := by
  simp +decide [instances, instanceTerm, name, arguments]

theorem memberBody_wary : memberBody.Wary kind clear fun _ _ _ => True := by
  simp +decide [memberBody, memberBlock]

theorem func_heeds : (func stops).Heeds strict kind clear := by
  refine heeds_expect ?_ fun token k => ?_
  · rintro _ ⟨⟩ token
    refine .opener fun opener => .inner rfl fun params => .closer fun closer => ?_
    exact .arrow fun arrow => .atBrace (.bind .block)
  · exact Wary.heeds (by simp +decide [isAtBrace, bracedBlock_wary])

theorem classOrStruct_heeds : classOrStruct.Heeds strict kind clear := by
  refine Wary.heeds_bind (wary_isAt.mpr (heeds_expectAny ?_ fun token k => ?_))
  · intro stage among opens token
    have header : stage = .header := by
      simp only [List.mem_cons, List.not_mem_nil, or_false] at among
      rcases among with rfl | rfl <;> cases opens <;> rfl
    subst header
    exact heritage_approaches fun names => .bind .members
  · exact Wary.heeds (by simp [heritage_wary, memberBody_wary])

theorem interface_heeds : interface.Heeds strict kind clear := by
  refine heeds_expect ?_ fun token k => ?_
  · rintro _ ⟨⟩ token
    refine .opener fun opener => .inner rfl fun supers => .closer fun closer => ?_
    exact .arrow fun arrow => .bind .members
  · exact Wary.heeds (by simp +decide [memberBody_wary])

theorem enumeration_wary : enumeration.Wary kind clear fun _ _ _ => True := by
  simp +decide [enumeration, heritage_wary, memberBlock]

theorem construct_heeds : (construct stops).Heeds strict kind clear := by
  refine heeds_current ?_
  split
  · exact func_heeds stops
  · exact classOrStruct_heeds
  · exact classOrStruct_heeds
  · exact interface_heeds
  · exact enumeration_wary.heeds
  · trivial

theorem leading_wary (plain : kind.stage? = none) :
    (leading stops).Wary kind clear fun _ _ _ => True := by
  simp [leading, plain]

theorem term_heeds : (term stops).Heeds strict kind clear := by
  refine heeds_current ?_
  split
  · next atom =>
    have plain := Kind.stage?_of_atomShape? atom
    exact Wary.heeds (by simp [plain])
  split
  · exact Wary.heeds (by simp +decide)
  · exact Wary.heeds (by simp +decide)
  · exact (leading_wary stops rfl).heeds
  · exact (leading_wary stops rfl).heeds
  · exact (leading_wary stops rfl).heeds
  · exact (leading_wary stops rfl).heeds
  · exact (leading_wary stops rfl).heeds
  · exact Wary.heeds (by simp +decide)
  · split
    · exact construct_heeds stops
    split
    · exact Wary.heeds (collection_wary.andThen fun value k n => by simp)
    · trivial

end Constructs

/-! Directives. -/

section Directives

variable {strict : Bool}

theorem otherwise?_heeds {α : Type} {f : Option NodeId → Parse α}
    (rest : ∀ o k n, (f o).Heeds strict k n) : (otherwise? >>= f).Heeds strict kind clear := by
  rw [otherwise?, LawfulMonad.bind_assoc]
  refine heeds_accept ?_ (fun k => ?_) (rest none kind clear)
  · rintro _ ⟨⟩
    simp only [if_true, LawfulMonad.bind_assoc]
    exact .arrow fun arrow => .bind (.atBrace .block)
  · simp only [if_true]
    exact Wary.heeds_then (by simp +decide [body_wary]) rest

theorem condition_wary : condition.Wary kind clear fun _ _ _ => True := by
  simp +decide [condition]

theorem branches_approaches (keyword : Token) : Approaches .header (branches keyword) := by
  simp only [branches, condition, LawfulMonad.bind_assoc, LawfulMonad.pure_bind]
  refine .opener fun opener => .inner rfl fun condition => .closer fun closer => ?_
  exact .arrow fun arrow => .bind (.atBrace .block)

theorem branches_heeds (keyword : Token) : (branches keyword).Heeds strict kind clear := by
  refine condition_wary.heeds_then fun condition k n => ?_
  refine Wary.heeds_then (by simp +decide) fun arrow k n => ?_
  refine body_wary.heeds_then fun body k n => ?_
  refine Wary.heeds_then (by simp) fun branch k n => ?_
  refine heeds_accept ?_ (fun k => ?_) trivial
  · rintro _ ⟨⟩
    exact .unlessIf (.arrow fun arrow => .bind (.atBrace .block))
  · refine heeds_accept? ?_ (fun keyword k => ?_) ?_
    · rintro _ ⟨⟩ keyword
      exact .bind (.call (branches_approaches keyword))
    · exact Wary.heeds (by simp)
    · exact Wary.heeds (by simp +decide [body_wary])

theorem conditional_heeds : conditional.Heeds strict kind clear := by
  refine heeds_expect ?_ fun token k => ?_
  · rintro _ ⟨⟩ token
    exact .bind (.call (branches_approaches token))
  · exact Wary.heeds (by simp)

theorem sections_wary : sections.Wary kind clear fun _ _ _ => True := by
  simp +decide [sections]

theorem loop_heeds : loop.Heeds strict kind clear := by
  refine heeds_expect ?_ fun token k => ?_
  · rintro _ ⟨⟩ token
    refine .opener fun opener => .inner rfl fun sections => ?_
    split
    · exact .stuck
    · exact .closer fun closer => .arrow fun arrow => .bind (.atBrace .block)
  · refine Wary.heeds_then (by simp +decide) fun opener k n => ?_
    refine Wary.heeds_then (by simp) fun sections k n => ?_
    split
    · trivial
    refine Wary.heeds_then (by simp +decide) fun closer k n => ?_
    refine Wary.heeds_then (by simp +decide) fun arrow k n => ?_
    refine body_wary.heeds_then fun body k n => ?_
    exact otherwise?_heeds fun otherwise k n => Wary.heeds (by simp)

theorem switch_heeds : switch.Heeds strict kind clear := by
  refine Wary.heeds_then (by simp +decide) fun token k n => ?_
  refine condition_wary.heeds_then fun subject k n => ?_
  refine Wary.heeds_then (by simp +decide) fun arrow k n => ?_
  refine Wary.heeds_then (by simp +decide) fun opener k n => ?_
  refine Wary.heeds_then (by simp) fun cases k n => ?_
  refine Wary.heeds_then (by simp +decide) fun closer k n => ?_
  exact otherwise?_heeds fun otherwise k n => Wary.heeds (by simp)

theorem cases_wary : cases.Wary kind clear fun _ _ _ => True := by
  have plain : kind = .caseKw ∨ kind = .defaultKw → kind.stage? = none := by
    rintro (rfl | rfl) <;> rfl
  simpa +decide [cases, block] using fun _ => plain

theorem catches_heeds : catches.Heeds strict kind clear := by
  refine heeds_accept? ?_ (fun token k => ?_) trivial
  · rintro _ ⟨⟩ token
    exact .declared fun declaration => .bind .block
  · refine heeds_declaration true fun declaration k n => ?_
    exact Wary.heeds (by simp [bracedBlock_wary])

theorem guarded_heeds : guarded.Heeds strict kind clear := by
  refine heeds_expect ?_ fun token k => ?_
  · rintro _ ⟨⟩ token
    exact .bind .block
  · refine bracedBlock_wary.heeds_then fun body k n => ?_
    refine Wary.heeds_then (by simp) fun catches k n => ?_
    exact otherwise?_heeds fun otherwise k n => Wary.heeds (by simp)

theorem directive_heeds : directive.Heeds strict kind clear := by
  refine heeds_current ?_
  split
  · exact conditional_heeds
  · exact loop_heeds
  · exact switch_heeds
  · exact guarded_heeds
  · trivial

theorem statement_heeds : statement.Heeds strict kind clear := by
  intro announced
  refine heeds_current ?_
  split
  · exact directive_heeds
  have ended (statement : NodeId) (k : Kind) (n : Nat) : (do
      let _ ← expect .eol
      return statement : Parse NodeId).Heeds strict k n :=
    Wary.heeds (by simp +decide)
  simp only [plainStatement, LawfulMonad.bind_assoc]
  refine heeds_current ?_
  split
  · exact Wary.heeds_then (by simp +decide) ended
  · exact Wary.heeds_then (by simp +decide) ended
  · exact Wary.heeds_then (by simp +decide) ended
  · exact Wary.heeds_then (by simp +decide) ended
  · exact Wary.heeds_then (by simp +decide) ended
  · exact Wary.heeds_then (by simp +decide) ended
  split
  · rw [LawfulMonad.bind_assoc]
    refine heeds_declaration false fun declaration k n => ?_
    exact Wary.heeds_then (by simp [assignment_wary]) ended
  · exact Wary.heeds_then (by simp) ended

end Directives

end Grammar

open Grammar

theorem Rule.body_heeds {y : Yield} (rule : Rule y) (kind : Kind) :
    rule.body.Heeds (!rule.isTyping) kind 0 := by
  cases rule with
  | statement => exact statement_heeds
  | statements stops => exact (statements_wary stops).heeds
  | expression stops assignable => exact (expression_wary stops assignable).heeds
  | weave left stops assignable => exact weave_heeds stops left assignable
  | term stops => exact term_heeds stops
  | suffix operand => exact (suffix_wary operand).heeds
  | typeTerm => exact heeds_of_sightless (by simp [body])
  | typeTerms => exact heeds_of_sightless (by simp [body])
  | modifiers => exact modifiers_wary.heeds
  | items stops item => exact items_heeds stops item
  | entries named => exact (entries_wary named).heeds
  | sections => exact sections_wary.heeds
  | branches keyword => exact branches_heeds keyword
  | cases => exact cases_wary.heeds
  | catches => exact catches_heeds
  | instances => exact instances_wary.heeds
  | members => exact members_wary.heeds

end ScriptSyntax
