import ScriptSyntax.Grammar.Statement
import ScriptSyntax.Proofs.Progress.Walk

/-! Every rule of the grammar makes progress. -/
namespace ScriptSyntax

namespace Container

theorem closer_ne_eof (c : Container) : c.closer ≠ .eof := by
  cases c <;> decide

theorem ne_eof_of_ofOpener? {k : Kind} {c : Container} (opens : ofOpener? k = some c) :
    k ≠ .eof := by
  rintro rfl
  contradiction

theorem ne_eof_of_ofShorthand? {k : Kind} {c : Container} (stands : ofShorthand? k = some c) :
    k ≠ .eof := by
  rintro rfl
  contradiction

end Container

namespace Grammar

open Parse

variable {rank : Nat} {moved : Bool} {kind : Kind}

section Block

theorem statements_proceeds (stops : List Kind) :
    (statements stops).Proceeds 3 moved kind fun _ _ _ => True := by
  simp only [statements, proceeds_bind, proceeds_isAtAny]
  split
  · trivial
  rw [proceeds_bind, proceeds_isAt]
  split
  · simp [endOfInput]
  · refine (lower_moves (by decide) rfl).bind fun first k => ?_
    simp

theorem block_moves (stops : List Kind) : Moves (block stops) rank true kind := by
  simp [block]

theorem bracedBlock_moves : Moves bracedBlock rank moved kind := by
  simp only [bracedBlock, proceeds_bind, proceeds_accept]
  split
  · simp
  refine (expect_moves (by decide)).bind fun _ k => ?_
  refine (block_moves _).bind fun body k => ?_
  simp

theorem body_moves : Moves body rank true kind := by
  simp only [body, isAtBrace, proceeds_bind, proceeds_isAtAny]
  split
  · exact bracedBlock_moves
  · simp

end Block

section Declaration

theorem typesUntil_moves (close : Kind) : Moves (typesUntil close) rank true kind := by
  refine (call_moves _).bind fun types k => ?_
  rw [proceeds_bind, proceeds_isAt]
  split <;> simp

theorem typeTerm_moves : Moves typeTerm rank moved kind := by
  refine proceeds_bind.mpr ((accept_keeps (by decide)).imp fun pointer m k _ => ?_)
  rw [proceeds_bind, proceeds_current]
  split
  · next container opens =>
    refine (shift_moves (Container.ne_eof_of_ofOpener? opens)).bind fun token k => ?_
    refine (typesUntil_moves _).bind fun elements k => ?_
    simp [container.closer_ne_eof]
  · next container opens =>
    refine (shift_moves (Container.ne_eof_of_ofShorthand? opens)).bind fun token k => ?_
    rfl
  · split
    · next named => exact (shift_moves_of named rfl).bind fun token k => rfl
    · exact fun _ => trivial

theorem typeTerms_moves : Moves typeTerms 1 moved kind := by
  refine (lower_moves (by decide) rfl).bind fun first k => ?_
  refine (accept_moves (by decide)).bind fun more k => ?_
  split <;> simp

theorem typeList_moves : Moves typeList rank moved kind := by
  refine (expect_moves (by decide)).bind fun _ k => ?_
  refine (typesUntil_moves _).bind fun types k => ?_
  simp

theorem modifiers_proceeds : modifiers.Proceeds rank moved kind fun _ _ _ => True := by
  simp only [modifiers, proceeds_bind, proceeds_current]
  split
  · next found =>
    refine (shift_moves_of found rfl).bind fun first k => ?_
    simp
  · trivial

theorem name_moves : Moves name rank moved kind := by
  refine (expect_moves (by decide)).bind fun _ k => ?_
  simp

theorem declaration_moves (typed : Bool) (ranked : moved = true ∨ 0 < rank) :
    Moves (declaration typed) rank moved kind := by
  refine proceeds_bind.mpr ((accept?_keeps (by decide)).imp fun mark m k kept => ?_)
  rw [proceeds_bind, proceeds_call]
  refine ⟨ranked.imp_left kept, fun modifiers k => ?_⟩
  refine (expect_moves (by decide)).bind fun token k => ?_
  rw [proceeds_bind, proceeds_add]
  intro name
  rw [proceeds_bind, proceeds_isAt]
  split
  · refine typeList_moves.bind fun types k => ?_
    simp
  · rw [proceeds_bind, proceeds_isAtAny]
    split <;> simp

theorem assignment_moves (target : NodeId) (stops : List Kind) :
    Moves (assignment target stops) rank moved kind := by
  simp only [assignment, proceeds_bind, proceeds_isAt]
  refine (expectAny_moves (by decide)).imp ?_
  rintro _ _ k rfl
  simp

end Declaration

section Object

theorem arguments_moves (close : Kind) : Moves (arguments close) rank true kind :=
  call_moves _

theorem parameter_moves (ranked : moved = true ∨ 0 < rank) : Moves parameter rank moved kind := by
  refine (declaration_moves false ranked).bind fun declaration k => ?_
  rw [proceeds_bind, proceeds_isAtAny]
  split
  · exact assignment_moves _ _
  · rfl

theorem func_moves (stops : List Kind) : Moves (func stops) rank moved kind := by
  refine (expect_moves (by decide)).bind fun token k => ?_
  refine (expect_moves (by decide)).bind fun _ k => ?_
  refine (call_moves _).bind fun params k => ?_
  refine (expect_moves (by decide)).bind fun _ k => ?_
  refine (expect_moves (by decide)).bind fun _ k => ?_
  simp only [isAtBrace, proceeds_bind, proceeds_isAtAny]
  split
  · refine bracedBlock_moves.bind fun body k => ?_
    simp
  · simp

theorem members_proceeds : members.Proceeds 3 moved kind fun _ _ _ => True := by
  simp only [members, proceeds_bind, proceeds_isAt]
  split
  · trivial
  rw [proceeds_bind, proceeds_isAt]
  split
  · simp [endOfInput]
  refine (lower_moves (by decide) rfl).bind fun first k => ?_
  rw [proceeds_bind, proceeds_inspect]
  intro profile
  split
  · simp
  · exact fun _ => trivial

theorem memberBlock_moves : Moves memberBlock rank true kind := by
  simp [memberBlock]

theorem memberBody_moves : Moves memberBody rank moved kind := by
  simp only [memberBody, proceeds_bind, proceeds_accept]
  split
  · simp
  refine (expect_moves (by decide)).bind fun _ k => ?_
  refine memberBlock_moves.bind fun body k => ?_
  simp

theorem heritage_moves : Moves heritage rank moved kind := by
  refine (expect_moves (by decide)).bind fun _ k => ?_
  refine (call_moves _).bind fun supers k => ?_
  refine (accept_moves (by decide)).bind fun colon k => ?_
  split <;> simp

theorem classOrStruct_moves : Moves classOrStruct rank moved kind := by
  refine proceeds_bind.mpr ?_
  rw [proceeds_isAt]
  refine (expectAny_moves (by decide)).bind fun token k => ?_
  refine heritage_moves.bind fun parts k => ?_
  refine memberBody_moves.bind fun body k => ?_
  simp

theorem interface_moves : Moves interface rank moved kind := by
  refine (expect_moves (by decide)).bind fun token k => ?_
  refine (expect_moves (by decide)).bind fun _ k => ?_
  refine (call_moves _).bind fun supers k => ?_
  refine (expect_moves (by decide)).bind fun _ k => ?_
  refine (expect_moves (by decide)).bind fun _ k => ?_
  refine memberBody_moves.bind fun body k => ?_
  simp

theorem instanceTerm_moves : Moves instanceTerm rank moved kind := by
  refine name_moves.bind fun target k => ?_
  refine (accept?_moves (by decide)).bind fun opened k => ?_
  cases opened with
  | none => rfl
  | some token =>
    refine (arguments_moves _).bind fun args k => ?_
    simp

theorem instances_moves : Moves instances rank moved kind := by
  refine instanceTerm_moves.bind fun first k => ?_
  refine (accept_moves (by decide)).bind fun more k => ?_
  split
  · rw [proceeds_bind, proceeds_isAt]
    split <;> simp
  · rfl

theorem enumeration_moves : Moves enumeration rank moved kind := by
  refine (expect_moves (by decide)).bind fun token k => ?_
  refine heritage_moves.bind fun parts k => ?_
  refine (expect_moves (by decide)).bind fun _ k => ?_
  refine (call_moves _).bind fun instances k => ?_
  refine (expect_moves (by decide)).bind fun _ k => ?_
  refine memberBlock_moves.bind fun body k => ?_
  simp

theorem construct_moves (stops : List Kind) : Moves (construct stops) rank moved kind := by
  simp only [construct, proceeds_bind, proceeds_current]
  split
  · exact func_moves stops
  · exact classOrStruct_moves
  · exact classOrStruct_moves
  · exact interface_moves
  · exact enumeration_moves
  · simp

end Object

section Collection

theorem step?_moves (close : Kind) : Moves (step? close) rank true kind := by
  refine (accept_moves (by decide)).bind fun colon k => ?_
  split <;> simp

theorem list_moves (linked : Bool) (more : kind ≠ .eof) : Moves (list linked) rank moved kind := by
  refine (shift_moves more).bind fun token k => ?_
  refine (accept_moves (by decide)).bind fun empty k => ?_
  split
  · simp
  refine (call_moves _).bind fun first k => ?_
  refine (accept_moves (by decide)).bind fun ranges k => ?_
  split
  · refine (call_moves _).bind fun stop k => ?_
    refine (step?_moves _).bind fun step k => ?_
    simp
  · refine (accept_moves (by decide)).bind fun comma k => ?_
    split <;> simp [arguments]

theorem set_moves (more : kind ≠ .eof) : Moves set rank moved kind := by
  refine (shift_moves more).bind fun token k => ?_
  refine (arguments_moves _).bind fun items k => ?_
  simp

theorem isAtNamedKey_proceeds : isAtNamedKey.Proceeds rank moved kind fun named moved' kind' =>
    moved' = moved ∧ kind' = kind ∧ (named = true → kind = .var) := by
  by_cases name : kind = .var <;> simp [isAtNamedKey, name, maxLookahead]

theorem key_proceeds (named : Bool) (ranked : moved = true ∨ 1 < rank) :
    (key named).Proceeds rank moved kind fun _ moved' _ => moved = true → moved' = true := by
  unfold key
  split
  · refine proceeds_bind.mpr (isAtNamedKey_proceeds.imp ?_)
    rintro named _ _ ⟨rfl, rfl, var⟩
    split
    · next found => simp [var found]
    · exact fun _ => trivial
  · simpa [Rule.rank, Rule.moves] using ranked

theorem entries_proceeds (named : Bool) :
    (entries named).Proceeds 2 moved kind fun _ _ _ => True := by
  rw [entries, proceeds_bind, proceeds_isAt]
  split
  · trivial
  refine proceeds_bind.mpr ((key_proceeds named (.inr (by decide))).imp fun key m k _ => ?_)
  refine (expect_moves (by decide)).bind fun _ k => ?_
  refine (call_moves _).bind fun value k => ?_
  refine (accept_moves (by decide)).bind fun comma k => ?_
  split <;> simp

theorem map_moves : Moves map rank moved kind := by
  refine (expect_moves (by decide)).bind fun token k => ?_
  refine proceeds_bind.mpr (isAtNamedKey_proceeds.imp ?_)
  rintro named _ _ ⟨rfl, rfl, -⟩
  simp

theorem edge_moves (directed : Bool) (stops : List Kind) (ranked : moved = true ∨ 1 < rank) :
    Moves (edge directed stops) rank moved kind := by
  refine proceeds_bind.mpr ⟨ranked, fun left k => ?_⟩
  refine proceeds_bind.mpr ?_
  rw [proceeds_isAt]
  split
  · refine (expectAny_moves (by decide)).bind fun token k => ?_
    simp
  · refine (expect_moves (by decide)).bind fun token k => ?_
    simp

theorem graph_moves (directed : Bool) (more : kind ≠ .eof) :
    Moves (graph directed) rank moved kind := by
  refine (shift_moves more).bind fun token k => ?_
  refine (call_moves _).bind fun nodes k => ?_
  refine (accept_moves (by decide)).bind fun separated k => ?_
  cases directed <;> cases separated <;> simp

theorem collection_moves : Moves collection rank moved kind := by
  refine proceeds_bind.mpr ?_
  rw [proceeds_current]
  split
  · next stands =>
    refine (shift_moves (Container.ne_eof_of_ofShorthand? stands)).bind fun token k => ?_
    simp
  · next opens => exact list_moves false (Container.ne_eof_of_ofOpener? opens)
  · next opens => exact list_moves true (Container.ne_eof_of_ofOpener? opens)
  · next opens => exact set_moves (Container.ne_eof_of_ofOpener? opens)
  · exact map_moves
  · next opens => exact graph_moves false (Container.ne_eof_of_ofOpener? opens)
  · next opens => exact graph_moves true (Container.ne_eof_of_ofOpener? opens)
  · simp

theorem item_proceeds (stops : List Kind) (i : Item) :
    (item stops i).Proceeds 2 moved kind fun _ _ _ => True := by
  cases i with
  | expression assignable => simp [item, Rule.rank]
  | name => exact name_moves.imp fun _ _ _ _ => trivial
  | parameter => exact (parameter_moves (.inr (by decide))).imp fun _ _ _ _ => trivial
  | edge directed => exact (edge_moves directed stops (.inr (by decide))).imp fun _ _ _ _ => trivial

theorem items_proceeds (stops : List Kind) (i : Item) :
    (items stops i).Proceeds 2 moved kind fun _ _ _ => True := by
  rw [items, proceeds_bind, proceeds_isAtAny]
  split
  · trivial
  refine proceeds_bind.mpr ((item_proceeds stops i).imp fun first m k _ => ?_)
  rw [proceeds_bind, proceeds_accept]
  split <;> simp

end Collection

section Expression

theorem isAtTypeList_proceeds : isAtTypeList.Proceeds rank moved kind fun _ moved' kind' =>
    moved' = moved ∧ kind' = kind := by
  rw [isAtTypeList, proceeds_bind, proceeds_peek]
  refine ⟨by decide, fun first => ?_⟩
  split
  · exact ⟨rfl, rfl⟩
  split <;> simp [maxLookahead]

theorem isAtInlineTypes_proceeds (left : NodeId) :
    (isAtInlineTypes left).Proceeds rank moved kind fun _ moved' kind' =>
      moved' = moved ∧ kind' = kind := by
  rw [isAtInlineTypes, proceeds_bind, proceeds_inspect]
  intro profile
  split
  · exact isAtTypeList_proceeds
  · exact ⟨rfl, rfl⟩

theorem expression_proceeds (stops : List Kind) (assignable : Bool) :
    (expression stops assignable).Proceeds 1 moved kind fun _ _ _ => True := by
  rw [expression, proceeds_bind, proceeds_isAtAny]
  split
  · simp
  · refine (lower_moves (by simp [Rule.rank]) rfl).bind fun first k => ?_
    simp

theorem checkAssignable_proceeds (assignable : Bool) :
    (checkAssignable assignable).Proceeds rank moved kind fun _ moved' kind' =>
      moved' = moved ∧ kind' = kind := by
  cases assignable with
  | true => exact ⟨rfl, rfl⟩
  | false => exact fun _ => trivial

theorem binary_moves (left : NodeId) (stops : List Kind) (assignable : Bool) (more : kind ≠ .eof) :
    Moves (binary left stops assignable) rank moved kind := by
  refine (shift_moves more).bind fun token k => ?_
  refine (call_moves _).bind fun right k => ?_
  simp

theorem weave_proceeds (left : NodeId) (stops : List Kind) (assignable : Bool) :
    (weave left stops assignable).Proceeds rank moved kind fun _ _ _ => True := by
  have done {p : Parse NodeId} {m : Bool} {k : Kind} (walk : Moves p rank m k) :
      p.Proceeds rank m k fun _ _ _ => True := walk.imp fun _ _ _ _ => trivial
  rw [weave, proceeds_bind, proceeds_current]
  split
  · simp
  split
  · refine proceeds_bind.mpr ((checkAssignable_proceeds assignable).imp fun _ m k _ => ?_)
    rw [proceeds_bind, proceeds_settle]
    exact fun target => done (assignment_moves target stops)
  split
  · next less =>
    refine proceeds_bind.mpr ((isAtInlineTypes_proceeds left).imp ?_)
    rintro typed _ _ ⟨rfl, rfl⟩
    split
    · refine typeList_moves.bind fun types k => ?_
      rw [proceeds_bind, proceeds_add]
      intro declaration
      rw [proceeds_bind, proceeds_isAtAny]
      split
      · refine proceeds_bind.mpr ((checkAssignable_proceeds assignable).imp fun _ m k _ => ?_)
        exact done (assignment_moves declaration stops)
      · trivial
    · exact done (binary_moves left stops assignable (by simp [less]))
  split
  · next ternary =>
    refine (shift_moves (by simp [ternary])).bind fun token k => ?_
    simp
  split
  · next operator =>
    refine done (binary_moves left stops assignable ?_)
    rintro rfl
    contradiction
  · simp

theorem leading_moves (stops : List Kind) (more : kind ≠ .eof) :
    Moves (leading stops) rank moved kind := by
  refine (shift_moves more).bind fun token k => ?_
  simp

theorem term_moves (stops : List Kind) : Moves (term stops) rank moved kind := by
  refine proceeds_bind.mpr ?_
  rw [proceeds_current]
  split
  · next shape atom =>
    refine (shift_moves ?_).bind fun token k => ?_
    · rintro rfl
      contradiction
    rw [proceeds_bind, proceeds_add]
    intro atom
    split <;> simp
  split
  · refine (shift_moves (by decide)).bind fun _ k => ?_
    simp
  · refine (shift_moves (by decide)).bind fun star k => ?_
    simp
  iterate 5
    · exact leading_moves stops (by decide)
  · refine (shift_moves (by decide)).bind fun _ k => ?_
    simp
  split
  · exact construct_moves stops
  split
  · refine collection_moves.bind fun value k => ?_
    simp
  · simp

theorem access_moves (target : NodeId) : Moves (access target) rank moved kind := by
  refine (expect_moves (by decide)).bind fun token k => ?_
  refine (call_moves _).bind fun first k => ?_
  refine (accept_moves (by decide)).bind fun colon k => ?_
  split
  · refine (call_moves _).bind fun stop k => ?_
    refine (step?_moves _).bind fun step k => ?_
    simp
  · simp

theorem property_moves : Moves property rank true kind := by
  refine (accept_moves (by decide)).bind fun opened k => ?_
  split
  · simp
  · exact name_moves

theorem rounding_moves (operand : NodeId) (more : kind ≠ .eof) :
    Moves (rounding operand) rank moved kind := by
  refine (shift_moves more).bind fun token k => ?_
  rw [proceeds_bind, proceeds_current]
  split
  · next shape atom =>
    refine (shift_moves ?_).bind fun token k => ?_
    · rintro rfl
      contradiction
    simp
  · simp

theorem suffix_proceeds (operand : NodeId) :
    (suffix operand).Proceeds rank moved kind fun _ _ _ => True := by
  rw [suffix, proceeds_bind, proceeds_current]
  split
  · refine (access_moves operand).bind fun node k => ?_
    simp
  iterate 2
    · refine (shift_moves (by decide)).bind fun token k => ?_
      refine property_moves.bind fun property k => ?_
      simp
  · refine (shift_moves (by decide)).bind fun token k => ?_
    refine (arguments_moves _).bind fun args k => ?_
    simp
  iterate 3
    · refine (shift_moves (by decide)).bind fun token k => ?_
      simp
  · rw [proceeds_bind, proceeds_peek]
    refine ⟨by decide, fun next => ?_⟩
    split <;> simp
  · refine Moves.bind (rounding_moves operand (by decide)) fun node k => ?_
    simp
  · trivial

end Expression

section Statement

theorem otherwise?_moves : Moves otherwise? rank true kind := by
  refine (accept_moves (by decide)).bind fun found k => ?_
  split
  · refine (expect_moves (by decide)).bind fun _ k => ?_
    refine body_moves.bind fun body k => ?_
    simp
  · rfl

theorem condition_moves : Moves condition rank moved kind := by
  refine (expect_moves (by decide)).bind fun _ k => ?_
  simp

theorem branches_moves (keyword : Token) : Moves (branches keyword) rank moved kind := by
  refine condition_moves.bind fun condition k => ?_
  refine (expect_moves (by decide)).bind fun _ k => ?_
  refine body_moves.bind fun body k => ?_
  rw [proceeds_bind, proceeds_add]
  intro branch
  refine (accept_moves (by decide)).bind fun more k => ?_
  split
  · refine (accept?_moves (by decide)).bind fun again k => ?_
    cases again with
    | some keyword => simp
    | none =>
      refine (expect_moves (by decide)).bind fun _ k => ?_
      refine body_moves.bind fun body k => ?_
      simp
  · rfl

theorem conditional_moves : Moves conditional rank moved kind := by
  refine (expect_moves (by decide)).bind fun token k => ?_
  simp

theorem sections_proceeds : sections.Proceeds 3 moved kind fun _ _ _ => True := by
  rw [sections, proceeds_bind, proceeds_call]
  refine ⟨.inr (by simp [Rule.rank]), fun first k => ?_⟩
  rw [proceeds_bind, proceeds_accept]
  split <;> simp

theorem loop_moves : Moves loop rank moved kind := by
  refine (expect_moves (by decide)).bind fun token k => ?_
  refine (expect_moves (by decide)).bind fun _ k => ?_
  refine (call_moves _).bind fun sections k => ?_
  split
  · exact fun _ => trivial
  refine (expect_moves (by decide)).bind fun _ k => ?_
  refine (expect_moves (by decide)).bind fun _ k => ?_
  refine body_moves.bind fun body k => ?_
  refine otherwise?_moves.bind fun otherwise k => ?_
  simp

theorem cases_proceeds : cases.Proceeds rank moved kind fun _ _ _ => True := by
  rw [cases, proceeds_bind, proceeds_isAt]
  split
  · trivial
  rw [proceeds_bind, proceeds_isAt]
  refine (expectAny_moves (by decide)).bind fun label k => ?_
  have arm (value : Option NodeId) (k : Kind) : Proceeds rank (do
      let _ ← expect .colon
      let body ← block [.caseKw, .defaultKw, .scopeClose]
      let first ← add (.caseArm value body) (some label)
      return first :: (← call .cases)) true k fun _ _ _ => True := by
    refine (expect_moves (by decide)).bind fun _ k => ?_
    refine (block_moves _).bind fun body k => ?_
    simp
  split
  · refine Moves.bind ?_ fun value k => arm value k
    simp
  · exact arm none k

theorem switch_moves : Moves switch rank moved kind := by
  refine (expect_moves (by decide)).bind fun token k => ?_
  refine condition_moves.bind fun subject k => ?_
  refine (expect_moves (by decide)).bind fun _ k => ?_
  refine (expect_moves (by decide)).bind fun _ k => ?_
  refine (call_moves _).bind fun cases k => ?_
  refine (expect_moves (by decide)).bind fun _ k => ?_
  refine otherwise?_moves.bind fun otherwise k => ?_
  simp

theorem catches_proceeds : catches.Proceeds rank moved kind fun _ _ _ => True := by
  rw [catches, proceeds_bind, proceeds_accept?]
  split
  · refine ⟨by decide, fun token k => ?_⟩
    refine (declaration_moves true (.inl rfl)).bind fun declaration k => ?_
    refine bracedBlock_moves.bind fun body k => ?_
    simp
  · trivial

theorem guarded_moves : Moves guarded rank moved kind := by
  refine (expect_moves (by decide)).bind fun token k => ?_
  refine bracedBlock_moves.bind fun body k => ?_
  refine (call_moves _).bind fun catches k => ?_
  refine otherwise?_moves.bind fun otherwise k => ?_
  simp

theorem directive_moves : Moves directive rank moved kind := by
  refine proceeds_bind.mpr ?_
  rw [proceeds_current]
  split
  · exact conditional_moves
  · exact loop_moves
  · exact switch_moves
  · exact guarded_moves
  · simp

theorem plainStatement_proceeds :
    plainStatement.Proceeds 2 moved kind fun _ _ _ => True := by
  rw [plainStatement, proceeds_bind, proceeds_current]
  split
  iterate 5
    · refine (shift_moves (by decide)).bind fun token k => ?_
      simp
  · simp
  split
  · refine (declaration_moves false (.inr (by decide))).bind fun declaration k => ?_
    rw [proceeds_bind, proceeds_isAtAny]
    split
    · exact (assignment_moves declaration _).imp fun _ _ _ _ => trivial
    · trivial
  · simp [Rule.rank]

theorem statement_moves : Moves statement 2 moved kind := by
  refine proceeds_bind.mpr ?_
  rw [proceeds_announce, proceeds_bind, proceeds_current]
  split
  · exact directive_moves
  · refine proceeds_bind.mpr (plainStatement_proceeds.imp fun statement m k _ => ?_)
    simp

end Statement

end Grammar

open Grammar in
/-- Every rule makes progress at its rank, and takes a token where it is said to. -/
theorem Rule.body_proceeds {y : Yield} (rule : Rule y) (kind : Kind) :
    rule.body.Proceeds rule.rank false kind fun _ moved _ => rule.moves = true → moved = true := by
  cases rule with
  | statement => exact statement_moves.imp fun _ _ _ taken _ => taken
  | statements stops => exact (statements_proceeds stops).still rfl
  | expression stops assignable => exact (expression_proceeds stops assignable).still rfl
  | weave left stops assignable => exact (weave_proceeds left stops assignable).still rfl
  | term stops => exact (term_moves stops).imp fun _ _ _ taken _ => taken
  | suffix operand => exact (suffix_proceeds operand).still rfl
  | typeTerm => exact typeTerm_moves.imp fun _ _ _ taken _ => taken
  | typeTerms => exact typeTerms_moves.imp fun _ _ _ taken _ => taken
  | modifiers => exact modifiers_proceeds.still rfl
  | items stops item => exact (items_proceeds stops item).still rfl
  | entries named => exact (entries_proceeds named).still rfl
  | sections => exact sections_proceeds.still rfl
  | branches keyword => exact (branches_moves keyword).imp fun _ _ _ taken _ => taken
  | cases => exact cases_proceeds.still rfl
  | catches => exact catches_proceeds.still rfl
  | instances => exact instances_moves.imp fun _ _ _ taken _ => taken
  | members => exact members_proceeds.still rfl

end ScriptSyntax
