import ScriptSyntax.Proofs.Ownership.Held

/-! What each function of the grammar takes from the nodes in hand and what it leaves. -/
namespace ScriptSyntax

open Parse

/-! What values hold. -/

namespace Yield

@[simp] theorem held_node (id : NodeId) : node.held id = [id] := rfl

@[simp] theorem held_nodes (ids : List NodeId) : nodes.held ids = ids.reverse := rfl

@[simp] theorem held_pairs (ps : List (NodeId × NodeId)) :
    pairs.held ps = (ps.flatMap fun p => [p.1, p.2]).reverse := rfl

@[simp] theorem held_sections (ss : List (List NodeId)) :
    sections.held ss = ss.flatten.reverse := rfl

@[simp] theorem held_branches (bs : List NodeId × Option NodeId) :
    branches.held bs = (bs.1 ++ bs.2.toList).reverse := rfl

@[simp] theorem held_tokens (ts : List Token) : tokens.held ts = [] := rfl

@[simp] theorem held_type (t : TypeTerm) : type.held t = [] := rfl

@[simp] theorem held_types (ts : List TypeTerm) : types.held ts = [] := rfl

end Yield

namespace Grammar

variable {stops : List Kind} {held : List NodeId}

attribute [local simp] Rule.takes

/-! Types, declarations and assignments. -/

@[simp] theorem owns_typesUntil {close : Kind} {post : List TypeTerm → List NodeId → Prop} :
    (typesUntil close).Owns held post ↔ ∀ types, post types held := by
  simp [typesUntil]

theorem typeTerm_owns : typeTerm.Owns held fun _ held' => held' = held := by
  simp only [typeTerm, owns_bind, owns_accept, owns_current]
  intro pointer kind
  split <;> simp

theorem typeTerms_owns : typeTerms.Owns held fun _ held' => held' = held := by
  simp [typeTerms]

@[simp] theorem owns_typeList {post : List TypeTerm → List NodeId → Prop} :
    typeList.Owns held post ↔ ∀ types, post types held := by
  simp [typeList]

theorem modifiers_owns : modifiers.Owns held fun _ held' => held' = held := by
  simp [modifiers]

@[simp] theorem owns_declaration {typed : Bool} {post : NodeId → List NodeId → Prop} :
    (declaration typed).Owns held post ↔ ∀ id, post id (id :: held) := by
  simp [declaration, Shape.children]

@[simp] theorem owns_isAtAssigner {post : Bool → List NodeId → Prop} :
    (isAtAny assigners).Owns held post ↔ ∀ found, post found held := by
  rw [owns_isAtAny, Bool.forall_bool]
  constructor
  · exact fun all => ⟨all .eol, all .assign⟩
  · intro both kind
    cases assigners.contains kind with
    | false => exact both.1
    | true => exact both.2

@[simp] theorem owns_assignment {target : NodeId} {post : NodeId → List NodeId → Prop} :
    (assignment target stops).Owns (target :: held) post ↔ ∀ id, post id (id :: held) := by
  simp [assignment, expectAny, assigners, Shape.children]

@[simp] theorem owns_block {post : NodeId → List NodeId → Prop} :
    (block stops).Owns held post ↔ ∀ id, post id (id :: held) := by
  simp [block, Shape.children]

theorem statements_owns :
    (statements stops).Owns held fun ids held' => held' = ids.reverse ++ held := by
  simp [statements, endOfInput]

@[simp] theorem owns_bracedBlock {post : NodeId → List NodeId → Prop} :
    bracedBlock.Owns held post ↔ ∀ id, post id (id :: held) := by
  simp [bracedBlock, Shape.children]

@[simp] theorem owns_body {post : NodeId → List NodeId → Prop} :
    body.Owns held post ↔ ∀ id, post id (id :: held) := by
  simp [body, isAtBrace, Shape.children]

/-! Constructs. -/

@[simp] theorem owns_name {post : NodeId → List NodeId → Prop} :
    name.Owns held post ↔ ∀ id, post id (id :: held) := by
  simp [name, Shape.children]

@[simp] theorem owns_arguments {close : Kind} {post : List NodeId → List NodeId → Prop} :
    (arguments close).Owns held post ↔ ∀ ids, post ids (ids.reverse ++ held) := by
  simp [arguments]

@[simp] theorem owns_parameter {post : NodeId → List NodeId → Prop} :
    parameter.Owns held post ↔ ∀ id, post id (id :: held) := by
  simp [parameter, forall_and, -owns_isAtAny]

@[simp] theorem owns_func {post : NodeId → List NodeId → Prop} :
    (func stops).Owns held post ↔ ∀ id, post id (id :: held) := by
  simp [func, isAtBrace, Shape.children]

theorem members_owns : members.Owns held fun ids held' => held' = ids.reverse ++ held := by
  simp [members, endOfInput]

@[simp] theorem owns_memberBlock {post : NodeId → List NodeId → Prop} :
    memberBlock.Owns held post ↔ ∀ id, post id (id :: held) := by
  simp [memberBlock, Shape.children]

@[simp] theorem owns_memberBody {post : NodeId → List NodeId → Prop} :
    memberBody.Owns held post ↔ ∀ id, post id (id :: held) := by
  simp [memberBody, Shape.children]

@[simp] theorem owns_heritage {post : List NodeId × List NodeId → List NodeId → Prop} :
    heritage.Owns held post ↔ ∀ supers interfaces : List NodeId,
      post (supers, interfaces) (interfaces.reverse ++ (supers.reverse ++ held)) := by
  simp only [heritage, owns_bind, owns_expect, owns_call, owns_accept, owns_ite, owns_pure,
    Rule.takes, List.nil_append, exists_eq_left', Yield.held_nodes, forall_const, Bool.forall_bool]
  constructor
  · exact fun all supers => (all supers).2
  · exact fun all supers => ⟨all supers [], all supers⟩

@[simp] theorem owns_classOrStruct {post : NodeId → List NodeId → Prop} :
    classOrStruct.Owns held post ↔ ∀ id, post id (id :: held) := by
  simp [classOrStruct, expectAny, Shape.children]

@[simp] theorem owns_interface {post : NodeId → List NodeId → Prop} :
    interface.Owns held post ↔ ∀ id, post id (id :: held) := by
  simp [interface, Shape.children]

@[simp] theorem owns_instanceTerm {post : NodeId → List NodeId → Prop} :
    instanceTerm.Owns held post ↔ ∀ id, post id (id :: held) := by
  simp [instanceTerm, Shape.children, Option.forall, forall_and]

theorem instances_owns : instances.Owns held fun ids held' => held' = ids.reverse ++ held := by
  simp [instances]

@[simp] theorem owns_enumeration {post : NodeId → List NodeId → Prop} :
    enumeration.Owns held post ↔ ∀ id, post id (id :: held) := by
  simp [enumeration, Shape.children]

theorem construct_owns : (construct stops).Owns held fun id held' => held' = id :: held := by
  simp only [construct, owns_bind, owns_current]
  intro kind
  split <;> simp

/-! Collections. -/

@[simp] theorem reverse_toList {α : Type} (o : Option α) : o.toList.reverse = o.toList := by
  cases o <;> rfl

@[simp] theorem owns_step? {close : Kind} {post : Option NodeId → List NodeId → Prop} :
    (step? close).Owns held post ↔ ∀ step : Option NodeId, post step (step.toList ++ held) := by
  simp [step?, Option.forall]

@[simp] theorem children_listShape (linked : Bool) (items : List NodeId) :
    (listShape linked items).children = items := by
  cases linked <;> rfl

@[simp] theorem children_rangeShape (linked : Bool) (start stop : NodeId) (step : Option NodeId) :
    (rangeShape linked start stop step).children = start :: stop :: step.toList := by
  cases linked <;> rfl

@[simp] theorem children_emptyShape (c : Container) : (emptyShape c).children = [] := by
  cases c <;> rfl

theorem list_owns (linked : Bool) :
    (list linked).Owns held fun id held' => held' = id :: held := by
  simp [list]

theorem set_owns : set.Owns held fun id held' => held' = id :: held := by
  simp [set, Shape.children]

@[simp] theorem owns_isAtNamedKey {post : Bool → List NodeId → Prop} :
    isAtNamedKey.Owns held post ↔ ∀ named, post named held := by
  simp only [isAtNamedKey, owns_bind, owns_isAt, owns_ite, owns_peek, owns_pure]
  constructor
  · intro all named
    cases named with
    | false => simpa using all false
    | true => simpa using all true .colon
  · intro all found
    split
    · exact fun kind => all _
    · exact all false

@[simp] theorem owns_key {named : Bool} {post : NodeId → List NodeId → Prop} :
    (key named).Owns held post ↔ ∀ id, post id (id :: held) := by
  cases named <;> simp [key, Shape.children]

theorem entries_owns (named : Bool) : (entries named).Owns held fun ps held' =>
    held' = (ps.flatMap fun p => [p.1, p.2]).reverse ++ held := by
  simp [entries]

theorem map_owns : map.Owns held fun id held' => held' = id :: held := by
  simp [map, Shape.children]

@[simp] theorem owns_edge {directed : Bool} {post : NodeId → List NodeId → Prop} :
    (edge directed stops).Owns held post ↔ ∀ id, post id (id :: held) := by
  cases directed <;> simp [edge, expectAny, Shape.children]

theorem graph_owns (directed : Bool) :
    (graph directed).Owns held fun id held' => held' = id :: held := by
  cases directed <;> simp [graph, Shape.children]

theorem collection_owns : collection.Owns held fun id held' => held' = id :: held := by
  simp only [collection, owns_bind, owns_current]
  intro kind
  split
  · simp
  · exact list_owns false
  · exact list_owns true
  · exact set_owns
  · exact map_owns
  · exact graph_owns false
  · exact graph_owns true
  · simp

@[simp] theorem owns_item {sort : Item} {post : NodeId → List NodeId → Prop} :
    (item stops sort).Owns held post ↔ ∀ id, post id (id :: held) := by
  cases sort <;> simp [item]

theorem items_owns (sort : Item) :
    (items stops sort).Owns held fun ids held' => held' = ids.reverse ++ held := by
  simp [items]

/-! Expressions. -/

theorem children_of_atomShape? {k : Kind} {s : Shape NodeId} (atom : atomShape? k = some s) :
    s.children = [] := by
  rw [atomShape?] at atom
  cases literal : literalShape? k with
  | none =>
    rw [literal] at atom
    change (if namesValue k then some Shape.name else none) = some s at atom
    split at atom <;> cases atom
    rfl
  | some shape =>
    rw [literal] at atom
    cases atom
    unfold literalShape? at literal
    split at literal <;> cases literal
    all_goals rfl

@[simp] theorem owns_isAtTypeList {post : Bool → List NodeId → Prop} :
    isAtTypeList.Owns held post ↔ ∀ found, post found held := by
  simp only [isAtTypeList, owns_bind, owns_peek, owns_ite, owns_pure]
  constructor
  · intro all found
    cases found with
    | false => exact all .eol
    | true => exact all .intKw
  · intro all kind
    split
    · exact all true
    split
    · exact fun kind => all _
    · exact all false

theorem expression_owns (assignable : Bool) :
    (expression stops assignable).Owns held fun id held' => held' = id :: held := by
  simp [expression, Shape.children]

@[simp] theorem owns_checkAssignable {assignable : Bool} {post : Unit → List NodeId → Prop} :
    (checkAssignable assignable).Owns held post ↔ (assignable = true → post () held) := by
  cases assignable <;> simp [checkAssignable]

theorem binary_owns (left : NodeId) (assignable : Bool) :
    (binary left stops assignable).Owns (left :: held) fun id held' => held' = id :: held := by
  simp [binary, Shape.children]

theorem weave_owns (left : NodeId) (assignable : Bool) :
    (weave left stops assignable).Owns (left :: held) fun id held' => held' = id :: held := by
  simp [weave, isAtInlineTypes, Shape.children, binary_owns]

theorem leading_owns : (leading stops).Owns held fun id held' => held' = id :: held := by
  simp [leading, Shape.children]

theorem term_owns : (term stops).Owns held fun id held' => held' = id :: held := by
  simp only [term, owns_bind, owns_current]
  intro kind
  split
  · next s atom =>
    simp [children_of_atomShape? atom]
  · split
    case h_9 =>
      simp only [owns_ite, owns_bind, owns_unexpected, owns_call, Rule.takes, Bool.or_eq_true]
      split
      · exact construct_owns
      split
      · refine collection_owns.imp fun value held' same => ?_
        exact ⟨held, same, by simp⟩
      · trivial
    all_goals simp [leading_owns, Shape.children]

@[simp] theorem owns_access {target : NodeId} {post : NodeId → List NodeId → Prop} :
    (access target).Owns (target :: held) post ↔ ∀ id, post id (id :: held) := by
  simp [access, Shape.children]

@[simp] theorem owns_property {post : NodeId → List NodeId → Prop} :
    property.Owns held post ↔ ∀ id, post id (id :: held) := by
  simp [property]

theorem rounding_owns (operand : NodeId) {post : NodeId → List NodeId → Prop}
    (rest : ∀ id, post id (id :: held)) : (rounding operand).Owns (operand :: held) post := by
  simp only [rounding, owns_bind, owns_shift, owns_current]
  intro token kind
  split
  · next s atom =>
    simp only [owns_bind, owns_shift, owns_add, children_of_atomShape? atom]
    simp [Shape.children, rest]
  · simp [Shape.children, rest]

theorem suffix_owns (operand : NodeId) :
    (suffix operand).Owns (operand :: held) fun id held' => held' = id :: held := by
  simp only [suffix, owns_bind, owns_current]
  intro kind
  split
  all_goals simp [Shape.children]
  exact rounding_owns operand (by simp)

/-! Statements. -/

@[simp] theorem owns_otherwise? {post : Option NodeId → List NodeId → Prop} :
    otherwise?.Owns held post ↔ ∀ otherwise : Option NodeId,
      post otherwise (otherwise.toList ++ held) := by
  simp [otherwise?, Option.forall]

@[simp] theorem owns_condition {post : NodeId → List NodeId → Prop} :
    condition.Owns held post ↔ ∀ id, post id (id :: held) := by
  simp [condition]

theorem branches_owns (keyword : Token) : (branches keyword).Owns held fun bs held' =>
    held' = (bs.1 ++ bs.2.toList).reverse ++ held := by
  simp [branches, Shape.children, Option.forall]

theorem conditional_owns : conditional.Owns held fun id held' => held' = id :: held := by
  simp [conditional, Shape.children]

theorem sections_owns : sections.Owns held fun ss held' => held' = ss.flatten.reverse ++ held := by
  simp [sections]

theorem loop_owns : loop.Owns held fun id held' => held' = id :: held := by
  simp only [loop, owns_bind, owns_expect, owns_call, owns_ite, owns_fail, owns_body,
    owns_otherwise?, owns_add, Rule.takes, List.nil_append, exists_eq_left', Yield.held_sections,
    forall_const, if_true_left, Nat.not_lt, List.cons.injEq, true_and, exists_eq_right]
  intro sections few body otherwise
  -- With three sections at most none is left out of the loop.
  rcases sections with - | ⟨a, - | ⟨b, - | ⟨c, - | ⟨d, more⟩⟩⟩⟩
  case cons.cons.cons.cons =>
    simp only [List.length_cons] at few
    omega
  all_goals simp [Shape.children]

theorem cases_owns : cases.Owns held fun ids held' => held' = ids.reverse ++ held := by
  simp [cases, expectAny, Shape.children]

theorem switch_owns : switch.Owns held fun id held' => held' = id :: held := by
  simp [switch, Shape.children]

theorem catches_owns : catches.Owns held fun ids held' => held' = ids.reverse ++ held := by
  simp [catches, Shape.children, Option.forall]

theorem guarded_owns : guarded.Owns held fun id held' => held' = id :: held := by
  simp [guarded, Shape.children]

theorem directive_owns : directive.Owns held fun id held' => held' = id :: held := by
  simp only [directive, owns_bind, owns_current]
  intro kind
  split
  · exact conditional_owns
  · exact loop_owns
  · exact switch_owns
  · exact guarded_owns
  · simp

theorem plainStatement_owns : plainStatement.Owns held fun id held' => held' = id :: held := by
  simp only [plainStatement, owns_bind, owns_current]
  intro kind
  split
  all_goals simp [Shape.children]

theorem statement_owns : statement.Owns held fun id held' => held' = id :: held := by
  simp [statement, directive_owns, plainStatement_owns]

end Grammar

theorem Rule.body_owns {y : Yield} (rule : Rule y) (held : List NodeId) :
    rule.body.Owns (rule.takes ++ held) fun a held' => held' = y.held a ++ held := by
  cases rule with
  | statement => exact Grammar.statement_owns
  | statements stops => exact Grammar.statements_owns
  | expression stops assignable => exact Grammar.expression_owns assignable
  | weave left stops assignable => exact Grammar.weave_owns left assignable
  | term stops => exact Grammar.term_owns
  | suffix operand => exact Grammar.suffix_owns operand
  | typeTerm => exact Grammar.typeTerm_owns
  | typeTerms => exact Grammar.typeTerms_owns
  | modifiers => exact Grammar.modifiers_owns
  | items stops item => exact Grammar.items_owns item
  | entries named => exact Grammar.entries_owns named
  | sections => exact Grammar.sections_owns
  | branches keyword => exact Grammar.branches_owns keyword
  | cases => exact Grammar.cases_owns
  | catches => exact Grammar.catches_owns
  | instances => exact Grammar.instances_owns
  | members => exact Grammar.members_owns

end ScriptSyntax
