import ScriptSyntax.Proofs.Scan.Catalog
import ScriptSyntax.Proofs.Signs.Walk

/-! Every rule of the grammar ends operands where the scanner takes them to end, or right behind the
types of a name. -/
namespace ScriptSyntax

namespace Grammar

open Parse

variable {kinds : Nat → Kind} {i : Nat} {stops : List Kind}

attribute [local simp] Rule.Enters Rule.Leaves

section Block

theorem statements_treads (stops : List Kind) :
    (statements stops).Treads kinds i fun _ _ => True := by
  simp [statements, endOfInput]

theorem block_treads (stops : List Kind) : (block stops).Treads kinds i fun _ _ => True := by
  simp [block]

theorem bracedBlock_treads : bracedBlock.Treads kinds i fun _ j => Unsigned kinds j := by
  simp only [bracedBlock, treads_bind, treads_accept]
  split
  · next empty => simpa using .of_kind empty (by decide)
  refine (expect_treads _).bind fun _ j _ => ?_
  refine (block_treads _).bind fun block j _ => ?_
  refine (closer_treads (by decide)).bind fun _ j ends => ?_
  exact ends

theorem body_treads : body.Treads kinds i fun _ _ => True := by
  simp only [body, isAtBrace, treads_bind, treads_isAtAny]
  split
  · exact bracedBlock_treads.imp fun _ _ _ => trivial
  · simp

end Block

section Declaration

theorem typesUntil_treads (close : Kind) :
    (typesUntil close).Treads kinds i fun _ j => kinds j = close := by
  simp [typesUntil]

theorem typeTerm_treads : typeTerm.Treads kinds i fun _ _ => True := by
  refine (accept_treads _).bind fun pointer j _ => ?_
  rw [treads_bind, treads_current]
  split
  · rw [treads_bind, treads_shift]
    intro token
    refine (typesUntil_treads _).bind fun types j _ => ?_
    simp
  · simp
  · simp

theorem typeTerms_treads : typeTerms.Treads kinds i fun _ _ => True := by
  simp [typeTerms]

theorem typeList_treads : typeList.Treads kinds i fun _ j => Closed kinds j := by
  refine (expect_treads _).bind fun _ j _ => ?_
  refine (typesUntil_treads _).bind fun types j found => ?_
  simpa using fun _ => ⟨j, rfl, found⟩

theorem modifiers_treads : modifiers.Treads kinds i fun _ _ => True := by
  simp [modifiers]

theorem name_treads : name.Treads kinds i fun _ j => Unsigned kinds j := by
  refine (closer_treads (by decide)).bind fun token j ends => ?_
  simpa using ends

/-- What follows the name of a declaration may be a chain of accesses. -/
theorem declaration_treads (typed : Bool) :
    (declaration typed).Treads kinds i fun _ _ => True := by
  refine (accept?_treads _).bind fun mark j _ => ?_
  refine (call_treads (by simp)).bind fun modifiers j _ => ?_
  refine (closer_treads (by decide)).bind fun token j ends => ?_
  rw [treads_bind, treads_add]
  intro name
  rw [treads_bind, treads_isAt]
  split
  · refine typeList_treads.bind fun types j _ => ?_
    simp
  · simp [ends]

theorem assignment_treads (target : NodeId) (plain : unnumbered stops = true) :
    (assignment target stops).Treads kinds i fun _ j => Unsigned kinds j ∨ Closed kinds j := by
  simp [assignment, plain]

end Declaration

section Object

theorem arguments_treads {close : Kind} (plain : unnumbered [close] = true) :
    (arguments close).Treads kinds i fun _ _ => True := by
  simp [arguments, plain]

theorem parameter_treads : parameter.Treads kinds i fun _ _ => True := by
  refine (declaration_treads false).bind fun declaration j _ => ?_
  rw [treads_bind, treads_isAtAny]
  split
  · exact (assignment_treads declaration (by decide)).imp fun _ _ _ => trivial
  · trivial

/-- A function that returns a value ends where the value does. -/
theorem func_treads (plain : unnumbered stops = true) :
    (func stops).Treads kinds i fun _ j => Unsigned kinds j ∨ Closed kinds j := by
  refine (expect_treads _).bind fun token j _ => ?_
  refine (expect_treads _).bind fun _ j _ => ?_
  refine (call_treads (by simp [unnumbered])).bind fun params j _ => ?_
  refine (expect_treads _).bind fun _ j _ => ?_
  refine (expect_treads _).bind fun _ j _ => ?_
  simp only [isAtBrace, treads_bind, treads_isAtAny]
  split
  · refine bracedBlock_treads.bind fun body j ends => ?_
    simpa using .inl ends
  · simp [plain]

theorem members_treads : members.Treads kinds i fun _ _ => True := by
  simp [members, endOfInput]

theorem memberBody_treads : memberBody.Treads kinds i fun _ j => Unsigned kinds j := by
  simp only [memberBody, treads_bind, treads_accept]
  split
  · next empty => simpa using .of_kind empty (by decide)
  refine (expect_treads _).bind fun _ j _ => ?_
  have members : memberBlock.Treads kinds j fun _ _ => True := by
    simp [memberBlock]
  refine members.bind fun body j _ => ?_
  refine (closer_treads (by decide)).bind fun _ j ends => ?_
  exact ends

theorem heritage_treads : heritage.Treads kinds i fun _ _ => True := by
  simp [heritage, unnumbered]

theorem classOrStruct_treads : classOrStruct.Treads kinds i fun _ j => Unsigned kinds j := by
  rw [classOrStruct, treads_bind, treads_isAt]
  refine (expectAny_treads _).bind fun token j _ => ?_
  refine heritage_treads.bind fun ⟨supers, interfaces⟩ j _ => ?_
  refine memberBody_treads.bind fun body j ends => ?_
  simpa using ends

theorem interface_treads : interface.Treads kinds i fun _ j => Unsigned kinds j := by
  refine (expect_treads _).bind fun token j _ => ?_
  refine (expect_treads _).bind fun _ j _ => ?_
  refine (call_treads (by simp [unnumbered])).bind fun supers j _ => ?_
  refine (expect_treads _).bind fun _ j _ => ?_
  refine (expect_treads _).bind fun _ j _ => ?_
  refine memberBody_treads.bind fun body j ends => ?_
  simpa using ends

theorem instanceTerm_treads : instanceTerm.Treads kinds i fun _ _ => True := by
  refine name_treads.bind fun target j _ => ?_
  refine (accept?_treads _).bind fun opener j _ => ?_
  cases opener with
  | none => trivial
  | some token =>
    refine (arguments_treads (by decide)).bind fun args j _ => ?_
    simp

theorem instances_treads : instances.Treads kinds i fun _ _ => True := by
  refine instanceTerm_treads.bind fun first j _ => ?_
  simp

theorem enumeration_treads : enumeration.Treads kinds i fun _ j => Unsigned kinds j := by
  refine (expect_treads _).bind fun token j _ => ?_
  refine heritage_treads.bind fun ⟨supers, interfaces⟩ j _ => ?_
  refine (expect_treads _).bind fun _ j _ => ?_
  refine (call_treads (by simp)).bind fun instances j _ => ?_
  refine (expect_treads _).bind fun _ j _ => ?_
  have members : memberBlock.Treads kinds j fun _ _ => True := by
    simp [memberBlock]
  refine members.bind fun body j _ => ?_
  refine (closer_treads (by decide)).bind fun _ j ends => ?_
  simpa using ends

theorem construct_treads (plain : unnumbered stops = true) :
    (construct stops).Treads kinds i fun _ j => Unsigned kinds j ∨ Closed kinds j := by
  rw [construct, treads_bind, treads_current]
  split
  · exact func_treads plain
  · exact classOrStruct_treads.imp fun _ _ => .inl
  · exact classOrStruct_treads.imp fun _ _ => .inl
  · exact interface_treads.imp fun _ _ => .inl
  · exact enumeration_treads.imp fun _ _ => .inl
  · trivial

end Object

section Collection

theorem step?_treads {close : Kind} (plain : unnumbered [close] = true) :
    (step? close).Treads kinds i fun _ _ => True := by
  simp [step?, plain]

/-- The last token is taken, and the node that it ends is added. -/
theorem closed_treads {k : Kind} (ends : Scanner.endsOperand k = true) {shape : Shape NodeId}
    {token : Option Token} :
    (do let _ ← expect k; add shape token : Parse NodeId).Treads kinds i
      fun _ j => Unsigned kinds j := by
  refine (closer_treads ends).bind fun _ j ends => ?_
  simpa using ends

theorem list_treads (linked : Bool) :
    (list linked).Treads kinds i fun _ j => Unsigned kinds j := by
  rw [list, treads_bind, treads_shift]
  intro token
  rw [treads_bind, treads_accept]
  split
  · next empty => simpa using .of_kind empty (by decide)
  refine (call_treads (by simp [unnumbered])).bind fun first j _ => ?_
  refine (accept_treads _).bind fun ranged j _ => ?_
  split
  · refine (call_treads (by simp [unnumbered])).bind fun stop j _ => ?_
    refine (step?_treads (by decide)).bind fun step j _ => ?_
    exact closed_treads (by decide)
  refine (accept_treads _).bind fun more j _ => ?_
  split
  · refine (arguments_treads (by decide)).bind fun others j _ => ?_
    exact closed_treads (by decide)
  · exact closed_treads (by decide)

theorem set_treads : set.Treads kinds i fun _ j => Unsigned kinds j := by
  rw [set, treads_bind, treads_shift]
  intro token
  refine (arguments_treads (by decide)).bind fun items j _ => ?_
  exact closed_treads (by decide)

theorem isAtNamedKey_treads : isAtNamedKey.Treads kinds i fun _ _ => True := by
  simp [isAtNamedKey]

theorem key_treads (named : Bool) : (key named).Treads kinds i fun _ _ => True := by
  rw [key, treads_ite]
  split
  · refine isAtNamedKey_treads.bind fun found j _ => ?_
    simp
  · exact (call_treads (by simp [unnumbered])).imp fun _ _ _ => trivial

theorem entries_treads (named : Bool) : (entries named).Treads kinds i fun _ _ => True := by
  rw [entries, treads_bind, treads_isAt]
  split
  · trivial
  refine (key_treads named).bind fun key j _ => ?_
  refine (expect_treads _).bind fun _ j _ => ?_
  refine (call_treads (by simp [unnumbered])).bind fun value j _ => ?_
  simp

theorem map_treads : map.Treads kinds i fun _ j => Unsigned kinds j := by
  refine (expect_treads _).bind fun token j _ => ?_
  refine isAtNamedKey_treads.bind fun named j _ => ?_
  refine (call_treads (by simp)).bind fun entries j _ => ?_
  exact closed_treads (by decide)

theorem edge_treads (directed : Bool) (plain : unnumbered stops = true) :
    (edge directed stops).Treads kinds i fun _ _ => True := by
  have plain' : unnumbered (.comma :: stops) = true := by simpa [unnumbered] using plain
  refine (call_treads (by simp [unnumbered])).bind fun left j _ => ?_
  cases directed <;> simp [plain']

theorem graph_treads (directed : Bool) :
    (graph directed).Treads kinds i fun _ j => Unsigned kinds j := by
  let close : Kind := if directed then .dirClose else .undirClose
  have inner : unnumbered [close] = true := by cases directed <;> decide
  have outer : unnumbered [.eol, close] = true := by cases directed <;> decide
  have ends : Scanner.endsOperand close = true := by cases directed <;> decide
  rw [graph, treads_bind, treads_shift]
  intro token
  refine Treads.bind (@call_treads _ _ _ (.items [.eol, close] _) outer) fun nodes j _ => ?_
  refine (accept_treads _).bind fun more j _ => ?_
  simp only [treads_ite]
  split
  · refine Treads.bind (@call_treads _ _ _ (.items [close] _) inner) fun edges j _ => ?_
    exact closed_treads ends
  · exact closed_treads ends

theorem endsOperand_of_ofShorthand? {k : Kind} {container : Container}
    (stands : Container.ofShorthand? k = some container) : Scanner.endsOperand k = true := by
  have is : container.shorthand = k := by simpa using List.find?_some stands
  rw [← is]
  cases container <;> decide

theorem collection_treads : collection.Treads kinds i fun _ j => Unsigned kinds j := by
  rw [collection, treads_bind, treads_current]
  split
  · next container stands =>
    rw [treads_bind, treads_shift]
    intro token
    refine treads_add.mpr fun _ => .of_ends ?_
    exact endsOperand_of_ofShorthand? stands
  · exact list_treads false
  · exact list_treads true
  · exact set_treads
  · exact map_treads
  · exact graph_treads false
  · exact graph_treads true
  · trivial

theorem item_treads (item : Item) (plain : unnumbered stops = true) :
    (Grammar.item stops item).Treads kinds i fun _ _ => True := by
  have plain' : unnumbered (.comma :: stops) = true := by simpa [unnumbered] using plain
  cases item with
  | expression assignable => exact (call_treads (by simpa using plain')).imp fun _ _ _ => trivial
  | name => exact name_treads.imp fun _ _ _ => trivial
  | parameter => exact parameter_treads
  | edge directed => exact edge_treads directed plain

theorem items_treads (item : Item) (plain : unnumbered stops = true) :
    (items stops item).Treads kinds i fun _ _ => True := by
  rw [items, treads_bind, treads_isAtAny]
  split
  · trivial
  refine (item_treads item plain).bind fun first j _ => ?_
  simp [plain]

end Collection

section Expression

theorem endsOperand_of_atomShape? {k : Kind} {shape : Shape NodeId}
    (atom : atomShape? k = some shape) : Scanner.endsOperand k = true := by
  have checked := @Kind.of_all (fun k => (atomShape? k).isSome) Scanner.endsOperand k
    (by decide)
  exact checked (by rw [atom]; rfl)

/-- What begins no term is no number. -/
theorem unsigned_of_beginsTerm {k : Kind} (is : kinds i = k) (other : beginsTerm k = false) :
    Unsigned kinds i := by
  refine .inl fun number => ?_
  rw [is] at number
  simp only [List.mem_cons, List.not_mem_nil, or_false] at number
  rcases number with rfl | rfl <;> contradiction

theorem unsigned_of_atomShape? (other : atomShape? (kinds i) = none) : Unsigned kinds i := by
  refine .inl fun number => ?_
  simp only [List.mem_cons, List.not_mem_nil, or_false] at number
  rcases number with is | is <;> rw [is] at other <;> contradiction

theorem isAtTypeList_treads : isAtTypeList.Treads kinds i fun _ j => j = i := by
  simp [isAtTypeList]

theorem isAtInlineTypes_treads (left : NodeId) :
    (isAtInlineTypes left).Treads kinds i fun _ j => j = i := by
  rw [isAtInlineTypes, treads_bind, treads_inspect]
  intro profile
  split
  · exact isAtTypeList_treads
  · rfl

theorem expression_treads (assignable : Bool) (plain : unnumbered stops = true) :
    (expression stops assignable).Treads kinds i fun _ j => Unsigned kinds j ∨ Closed kinds j := by
  rw [expression, treads_bind, treads_isAtAny]
  split
  · next found => simpa using .inl (.of_stop plain found)
  · simp [plain]

theorem binary_treads (left : NodeId) (assignable : Bool) (plain : unnumbered stops = true) :
    (binary left stops assignable).Treads kinds i
      fun _ j => Unsigned kinds j ∨ Closed kinds j := by
  rw [binary, treads_bind, treads_shift]
  intro token
  refine (call_treads (by simpa using plain)).bind fun right j ends => ?_
  simpa [plain] using ends

theorem weave_treads (left : NodeId) (assignable : Bool) (plain : unnumbered stops = true)
    (ends : Unsigned kinds i ∨ Closed kinds i) :
    (weave left stops assignable).Treads kinds i fun _ j => Unsigned kinds j ∨ Closed kinds j := by
  have settled : (settle left).Treads kinds i fun _ j => Unsigned kinds j ∨ Closed kinds j :=
    treads_settle.mpr fun _ => ends
  rw [weave, treads_bind, treads_current]
  split
  · exact settled
  split
  · simp only [checkAssignable, treads_bind, treads_ite, treads_pure, treads_fail]
    split
    · exact fun target => assignment_treads target plain
    · trivial
  split
  · refine (isAtInlineTypes_treads left).bind ?_
    rintro typed _ rfl
    split
    · refine typeList_treads.bind fun types j closed => ?_
      rw [treads_bind, treads_add]
      intro declaration
      rw [treads_bind, treads_isAtAny]
      split
      · simp only [checkAssignable, treads_bind, treads_ite, treads_pure, treads_fail]
        split
        · exact assignment_treads declaration plain
        · trivial
      · exact .inr closed
    · exact binary_treads left assignable plain
  split
  · rw [treads_bind, treads_shift]
    intro token
    refine (call_treads (by simp [unnumbered])).bind fun center j _ => ?_
    refine (expect_treads _).bind fun _ j _ => ?_
    refine (call_treads (by simpa using plain)).bind fun right j ends => ?_
    simpa [plain] using ends
  split
  · exact binary_treads left assignable plain
  · exact settled

theorem leading_treads (plain : unnumbered stops = true) :
    (leading stops).Treads kinds i fun _ j => Unsigned kinds j ∨ Closed kinds j := by
  simp [leading, plain]

/-- An operand ends where the accesses, calls and trailing operators that apply to it do. -/
theorem suffixed_treads {operand : NodeId} (ends : Unsigned kinds i) :
    (call (.suffix operand)).Treads kinds i fun _ j => Unsigned kinds j ∨ Closed kinds j :=
  (@call_treads _ _ _ (.suffix operand) ends).imp fun _ _ => .inl

theorem term_treads (plain : unnumbered stops = true) :
    (term stops).Treads kinds i fun _ j => Unsigned kinds j ∨ Closed kinds j := by
  rw [term, treads_bind, treads_current]
  split
  · next shape atom =>
    have ends : Unsigned kinds (i + 1) := .of_ends (endsOperand_of_atomShape? atom)
    rw [treads_bind, treads_shift]
    intro token
    rw [treads_bind, treads_add]
    intro atom
    split
    · exact suffixed_treads ends
    · exact .inl ends
  split
  · rw [treads_bind, treads_shift]
    intro _
    refine (call_treads (by simp [unnumbered])).bind fun inner j _ => ?_
    refine (closer_treads (by decide)).bind fun _ j ends => ?_
    exact suffixed_treads ends
  · simp [plain]
  iterate 5
    · exact leading_treads plain
  · simp [plain]
  split
  · exact construct_treads plain
  split
  · exact collection_treads.bind fun value j ends => suffixed_treads ends
  · trivial

theorem access_treads (target : NodeId) :
    (access target).Treads kinds i fun _ j => Unsigned kinds j := by
  refine (expect_treads _).bind fun token j _ => ?_
  refine (call_treads (by simp [unnumbered])).bind fun first j _ => ?_
  refine (accept_treads _).bind fun colon j _ => ?_
  split
  · refine (call_treads (by simp [unnumbered])).bind fun stop j _ => ?_
    refine (step?_treads (by decide)).bind fun step j _ => ?_
    exact closed_treads (by decide)
  · exact closed_treads (by decide)

theorem property_treads : property.Treads kinds i fun _ j => Unsigned kinds j := by
  refine (accept_treads _).bind fun opened j _ => ?_
  split
  · refine (call_treads (by simp [unnumbered])).bind fun inner j _ => ?_
    refine (closer_treads (by decide)).bind fun _ j ends => ?_
    exact ends
  · exact name_treads

/-- A backquote that nothing to round to follows comes before no number. -/
theorem rounding_treads (operand : NodeId) :
    (rounding operand).Treads kinds i fun _ j => Unsigned kinds j := by
  rw [rounding, treads_bind, treads_shift]
  intro token
  rw [treads_bind, treads_current]
  split
  · next shape atom =>
    have ends : Unsigned kinds (i + 1 + 1) := .of_ends (endsOperand_of_atomShape? atom)
    simpa using ends
  · next other => exact treads_add.mpr fun _ => unsigned_of_atomShape? other

theorem suffix_treads (operand : NodeId) (ends : Unsigned kinds i) :
    (suffix operand).Treads kinds i fun _ j => Unsigned kinds j := by
  rw [suffix, treads_bind, treads_current]
  split
  · exact (access_treads operand).bind fun node j ends => call_treads ends
  iterate 2
    · rw [treads_bind, treads_shift]
      intro token
      refine property_treads.bind fun property j ends => ?_
      simpa using ends
  · rw [treads_bind, treads_shift]
    intro token
    refine (arguments_treads (by decide)).bind fun args j _ => ?_
    refine (closer_treads (by decide)).bind fun _ j ends => ?_
    simpa using ends
  iterate 3
    · next here =>
      have ends : Unsigned kinds (i + 1) := .of_kind here (by decide)
      simpa using ends
  · rw [treads_bind, treads_peek]
    split
    · exact ends
    · next other =>
      have ends : Unsigned kinds (i + 1) := unsigned_of_beginsTerm rfl (by simpa using other)
      simpa using ends
  · exact (rounding_treads operand).bind fun node j ends => call_treads ends
  · exact ends

end Expression

section Statement

theorem otherwise?_treads : otherwise?.Treads kinds i fun _ _ => True := by
  refine (accept_treads _).bind fun found j _ => ?_
  split
  · refine (expect_treads _).bind fun _ j _ => ?_
    refine body_treads.bind fun body j _ => ?_
    simp
  · trivial

theorem condition_treads : condition.Treads kinds i fun _ _ => True := by
  simp [condition, unnumbered]

theorem branches_treads (keyword : Token) : (branches keyword).Treads kinds i fun _ _ => True := by
  refine condition_treads.bind fun condition j _ => ?_
  refine (expect_treads _).bind fun _ j _ => ?_
  refine body_treads.bind fun body j _ => ?_
  rw [treads_bind, treads_add]
  intro branch
  refine (accept_treads _).bind fun more j _ => ?_
  split
  · refine (accept?_treads _).bind fun again j _ => ?_
    cases again with
    | some keyword => simp
    | none =>
      refine (expect_treads _).bind fun _ j _ => ?_
      refine body_treads.bind fun body j _ => ?_
      simp
  · trivial

theorem conditional_treads : conditional.Treads kinds i fun _ _ => True := by
  simp [conditional]

theorem sections_treads : sections.Treads kinds i fun _ _ => True := by
  simp [sections, unnumbered]

theorem loop_treads : loop.Treads kinds i fun _ _ => True := by
  refine (expect_treads _).bind fun token j _ => ?_
  refine (expect_treads _).bind fun _ j _ => ?_
  refine (call_treads (by simp)).bind fun sections j _ => ?_
  split
  · trivial
  refine (expect_treads _).bind fun _ j _ => ?_
  refine (expect_treads _).bind fun _ j _ => ?_
  refine body_treads.bind fun body j _ => ?_
  refine otherwise?_treads.bind fun otherwise j _ => ?_
  simp

theorem cases_treads : cases.Treads kinds i fun _ _ => True := by
  simp [cases, block, unnumbered]

theorem switch_treads : switch.Treads kinds i fun _ _ => True := by
  refine (expect_treads _).bind fun token j _ => ?_
  refine condition_treads.bind fun subject j _ => ?_
  refine (expect_treads _).bind fun _ j _ => ?_
  refine (expect_treads _).bind fun _ j _ => ?_
  refine (call_treads (by simp)).bind fun cases j _ => ?_
  refine (expect_treads _).bind fun _ j _ => ?_
  refine otherwise?_treads.bind fun otherwise j _ => ?_
  simp

theorem catches_treads : catches.Treads kinds i fun _ _ => True := by
  refine (accept?_treads _).bind fun keyword j _ => ?_
  cases keyword with
  | none => trivial
  | some token =>
    refine (declaration_treads true).bind fun declaration j _ => ?_
    refine bracedBlock_treads.bind fun body j _ => ?_
    simp

theorem guarded_treads : guarded.Treads kinds i fun _ _ => True := by
  refine (expect_treads _).bind fun token j _ => ?_
  refine bracedBlock_treads.bind fun body j _ => ?_
  refine (call_treads (by simp)).bind fun catches j _ => ?_
  refine otherwise?_treads.bind fun otherwise j _ => ?_
  simp

theorem directive_treads : directive.Treads kinds i fun _ _ => True := by
  rw [directive, treads_bind, treads_current]
  split
  · exact conditional_treads
  · exact loop_treads
  · exact switch_treads
  · exact guarded_treads
  · trivial

theorem plainStatement_treads : plainStatement.Treads kinds i fun _ _ => True := by
  rw [plainStatement, treads_bind, treads_current]
  split
  iterate 6
    · simp [unnumbered]
  split
  · refine (declaration_treads false).bind fun declaration j _ => ?_
    rw [treads_bind, treads_isAtAny]
    split
    · exact (assignment_treads declaration (by decide)).imp fun _ _ _ => trivial
    · trivial
  · simp [unnumbered]

theorem statement_treads : statement.Treads kinds i fun _ _ => True := by
  rw [statement, treads_bind, treads_announce, treads_bind, treads_current]
  split
  · exact directive_treads
  · refine plainStatement_treads.bind fun statement j _ => ?_
    simp

end Statement

end Grammar

open Grammar in
/-- A rule that is called where it may be calls others where they may be, and ends as it is said
to. -/
theorem Rule.body_treads {kinds : Nat → Kind} {i : Nat} {y : Yield} (rule : Rule y)
    (enters : rule.Enters kinds i) : rule.body.Treads kinds i fun _ j => rule.Leaves kinds j := by
  cases rule with
  | statement => exact statement_treads
  | statements stops => exact statements_treads stops
  | expression stops assignable => exact expression_treads assignable enters
  | weave left stops assignable => exact weave_treads left assignable enters.1 enters.2
  | term stops => exact term_treads enters
  | suffix operand => exact suffix_treads operand enters
  | typeTerm => exact typeTerm_treads
  | typeTerms => exact typeTerms_treads
  | modifiers => exact modifiers_treads
  | items stops item => exact items_treads item enters
  | entries named => exact entries_treads named
  | sections => exact sections_treads
  | branches keyword => exact branches_treads keyword
  | cases => exact cases_treads
  | catches => exact catches_treads
  | instances => exact instances_treads
  | members => exact members_treads

end ScriptSyntax
