import ScriptSyntax.Proofs.Derivation.Expression
import ScriptSyntax.Proofs.Layout.Parse

/-! No rule of the grammar takes notice of where things are. There is a lemma for each function:
lifting goes through its steps, and where a step decides how to go on its answers are told
apart. -/
namespace ScriptSyntax

open Parse

namespace Grammar

variable (o : Nat) (stops : List Kind)

@[simp] theorem told_typesUntil (close : Kind) :
    (typesUntil close).told o = TypeTerm.unplacedAll <$> (typesUntil close).lifted o := by
  simp [typesUntil]

@[simp] theorem told_typeTerm : typeTerm.told o = TypeTerm.unplaced <$> typeTerm.lifted o := by
  apply told_bind_of_eq o (told_accept o .multiply)
  intro pointer
  apply told_bind_of_eq o (told_current o)
  intro kind
  split <;> simp [TypeTerm.unplaced, TypeTerm.unplacedAll]

@[simp] theorem told_typeTerms :
    typeTerms.told o = TypeTerm.unplacedAll <$> typeTerms.lifted o := by
  simp [typeTerms, TypeTerm.unplacedAll]

@[simp] theorem told_typeList : typeList.told o = TypeTerm.unplacedAll <$> typeList.lifted o := by
  simp [typeList]

@[simp] theorem told_modifiers :
    modifiers.told o = List.map Token.unplaced <$> modifiers.lifted o := by
  simp [modifiers]

@[simp] theorem told_declaration (typed : Bool) :
    (declaration typed).told o = (o + ·) <$> (declaration typed).lifted o := by
  simp [declaration, TypeTerm.unplacedAll, Shape.lifted, Shape.map]

@[simp] theorem told_assignment (target : NodeId) :
    (assignment (o + target) stops).told o =
      (o + ·) <$> (assignment target stops).lifted o := by
  simp [assignment, Shape.lifted, Shape.map]

/-! Blocks. -/

@[simp] theorem told_endOfInput {α : Type} : (endOfInput : Parse α).told o = endOfInput := rfl

@[simp] theorem lifted_endOfInput {α : Type} : (endOfInput : Parse α).lifted o = endOfInput := rfl

@[simp] theorem map_endOfInput {α β : Type} (g : α → β) :
    g <$> (endOfInput : Parse α) = endOfInput := rfl

@[simp] theorem told_statements :
    (statements stops).told o = List.map (o + ·) <$> (statements stops).lifted o := by
  simp [statements]

@[simp] theorem told_block : (block stops).told o = (o + ·) <$> (block stops).lifted o := by
  simp [block, Shape.lifted, Shape.map]

@[simp] theorem told_isAtBrace : isAtBrace.told o = isAtBrace := rfl

@[simp] theorem lifted_isAtBrace : isAtBrace.lifted o = isAtBrace := rfl

@[simp] theorem told_bracedBlock :
    bracedBlock.told o = (o + ·) <$> bracedBlock.lifted o := by
  simp [bracedBlock, Shape.lifted, Shape.map]

@[simp] theorem told_body : body.told o = (o + ·) <$> body.lifted o := by
  simp [body, Shape.lifted, Shape.map]

/-! Constructs. -/

@[simp] theorem told_name : name.told o = (o + ·) <$> name.lifted o := by
  simp [name, Shape.lifted, Shape.map]

@[simp] theorem told_arguments (close : Kind) :
    (arguments close).told o = List.map (o + ·) <$> (arguments close).lifted o := by
  simp [arguments]

@[simp] theorem told_parameter : parameter.told o = (o + ·) <$> parameter.lifted o := by
  simp [parameter]

@[simp] theorem told_func : (func stops).told o = (o + ·) <$> (func stops).lifted o := by
  simp [func, Shape.lifted, Shape.map]

@[simp] theorem told_members : members.told o = List.map (o + ·) <$> members.lifted o := by
  simp [members]

@[simp] theorem told_memberBlock :
    memberBlock.told o = (o + ·) <$> memberBlock.lifted o := by
  simp [memberBlock, Shape.lifted, Shape.map]

@[simp] theorem told_memberBody : memberBody.told o = (o + ·) <$> memberBody.lifted o := by
  simp [memberBody, Shape.lifted, Shape.map]

@[simp] theorem told_heritage :
    heritage.told o = Prod.map (List.map (o + ·)) (List.map (o + ·)) <$> heritage.lifted o := by
  simp [heritage]

@[simp] theorem told_classOrStruct :
    classOrStruct.told o = (o + ·) <$> classOrStruct.lifted o := by
  apply told_bind_of_eq o (told_isAt o .classKw)
  intro isClass
  cases isClass <;> simp [Shape.lifted, Shape.map]

@[simp] theorem told_interface : interface.told o = (o + ·) <$> interface.lifted o := by
  simp [interface, Shape.lifted, Shape.map]

@[simp] theorem told_instanceTerm :
    instanceTerm.told o = (o + ·) <$> instanceTerm.lifted o := by
  apply told_bind_of_map o (told_name o)
  intro target
  apply told_bind_of_map o (told_accept? o .parOpen)
  intro opener
  cases opener <;> simp [Shape.lifted, Shape.map]

@[simp] theorem told_instances : instances.told o = List.map (o + ·) <$> instances.lifted o := by
  simp [instances]

@[simp] theorem told_enumeration :
    enumeration.told o = (o + ·) <$> enumeration.lifted o := by
  simp [enumeration, Shape.lifted, Shape.map]

@[simp] theorem told_construct :
    (construct stops).told o = (o + ·) <$> (construct stops).lifted o := by
  apply told_bind_of_eq o (told_current o)
  intro kind
  split <;> simp

/-! Collections. -/

@[simp] theorem told_step? (close : Kind) :
    (step? close).told o = Option.map (o + ·) <$> (step? close).lifted o := by
  simp [step?]

@[simp] theorem lifted_listShape (linked : Bool) (items : List NodeId) :
    (listShape linked items).lifted o = listShape linked (items.map (o + ·)) := by
  cases linked <;> rfl

@[simp] theorem lifted_rangeShape (linked : Bool) (start stop : NodeId) (step : Option NodeId) :
    (rangeShape linked start stop step).lifted o =
      rangeShape linked (o + start) (o + stop) (step.map (o + ·)) := by
  cases linked <;> rfl

@[simp] theorem lifted_emptyShape (c : Container) :
    (emptyShape c).lifted o = emptyShape c := by
  cases c <;> rfl

@[simp] theorem told_list (linked : Bool) :
    (list linked).told o = (o + ·) <$> (list linked).lifted o := by
  simp [list]

@[simp] theorem told_set : set.told o = (o + ·) <$> set.lifted o := by
  simp [set, Shape.lifted, Shape.map]

@[simp] theorem told_isAtNamedKey : isAtNamedKey.told o = isAtNamedKey.lifted o := by
  simp [isAtNamedKey]

@[simp] theorem told_key (named : Bool) :
    (key named).told o = (o + ·) <$> (key named).lifted o := by
  cases named <;> simp [key, Shape.lifted, Shape.map]

@[simp] theorem told_entries (named : Bool) :
    (entries named).told o =
      List.map (fun p => (o + p.1, o + p.2)) <$> (entries named).lifted o := by
  simp [entries]

@[simp] theorem told_map : map.told o = (o + ·) <$> map.lifted o := by
  apply told_bind_of_map o (told_expect o .scopeOpen)
  intro token
  apply told_bind_of_eq o (told_isAtNamedKey o)
  intro named
  cases named <;> simp [Shape.lifted, Shape.map]

@[simp] theorem told_edge (directed : Bool) :
    (edge directed stops).told o = (o + ·) <$> (edge directed stops).lifted o := by
  cases directed <;> simp [edge, Shape.lifted, Shape.map]

@[simp] theorem told_graph (directed : Bool) :
    (graph directed).told o = (o + ·) <$> (graph directed).lifted o := by
  cases directed <;> simp [graph, Shape.lifted, Shape.map]

@[simp] theorem told_collection : collection.told o = (o + ·) <$> collection.lifted o := by
  apply told_bind_of_eq o (told_current o)
  intro kind
  split <;> simp

@[simp] theorem told_item (sort : Item) :
    (item stops sort).told o = (o + ·) <$> (item stops sort).lifted o := by
  cases sort <;> simp [item]

@[simp] theorem told_items (sort : Item) :
    (items stops sort).told o = List.map (o + ·) <$> (items stops sort).lifted o := by
  simp [items]

/-! Expressions. -/

theorem lifted_of_atomShape? {k : Kind} {s : Shape NodeId} (found : atomShape? k = some s) :
    s.lifted o = s := by
  obtain ⟨shape, rfl, leaf⟩ := atomShape?_eq_map found
  have none : (shape.map Tree.id).children = [] := by rw [Shape.children_map, leaf, List.map_nil]
  have same : (shape.map Tree.id).map (o + ·) = shape.map Tree.id :=
    (Shape.map_congr _ (by simp [none])).trans (Shape.map_self _)
  rw [Shape.lifted, same, Shape.unplaced_of_leaf none]

@[simp] theorem told_isAtTypeList : isAtTypeList.told o = isAtTypeList.lifted o := by
  simp [isAtTypeList]

@[simp] theorem told_isAtInlineTypes (left : NodeId) :
    (isAtInlineTypes (o + left)).told o = (isAtInlineTypes left).lifted o := by
  simp [isAtInlineTypes]

@[simp] theorem told_expression (assignable : Bool) :
    (expression stops assignable).told o =
      (o + ·) <$> (expression stops assignable).lifted o := by
  simp [expression, Shape.lifted, Shape.map]

@[simp] theorem told_checkAssignable (assignable : Bool) :
    (checkAssignable assignable).told o = (checkAssignable assignable).lifted o := by
  simp [checkAssignable]

@[simp] theorem told_binary (left : NodeId) (assignable : Bool) :
    (binary (o + left) stops assignable).told o =
      (o + ·) <$> (binary left stops assignable).lifted o := by
  simp [binary, Shape.lifted, Shape.map]

@[simp] theorem told_weave (left : NodeId) (assignable : Bool) :
    (weave (o + left) stops assignable).told o =
      (o + ·) <$> (weave left stops assignable).lifted o := by
  simp [weave, Shape.lifted, Shape.map]

@[simp] theorem told_leading : (leading stops).told o = (o + ·) <$> (leading stops).lifted o := by
  simp [leading, Shape.lifted, Shape.map]

@[simp] theorem told_term : (term stops).told o = (o + ·) <$> (term stops).lifted o := by
  apply told_bind_of_eq o (told_current o)
  intro kind
  split
  · next shape found =>
    simp [lifted_of_atomShape? o found]
  · split <;> simp [Shape.lifted, Shape.map]

@[simp] theorem told_access (target : NodeId) :
    (access (o + target)).told o = (o + ·) <$> (access target).lifted o := by
  simp [access, Shape.lifted, Shape.map]

@[simp] theorem told_property : property.told o = (o + ·) <$> property.lifted o := by
  simp [property]

@[simp] theorem told_rounding (operand : NodeId) :
    (rounding (o + operand)).told o = (o + ·) <$> (rounding operand).lifted o := by
  apply told_bind_of_map o (told_shift o)
  intro token
  apply told_bind_of_eq o (told_current o)
  intro kind
  split
  · next shape found =>
    apply told_bind_of_map o (told_shift o)
    intro digits
    apply told_bind_of_map o (g := (o + ·)) (by simp [lifted_of_atomShape? o found])
    intro places
    simp [Shape.lifted, Shape.map]
  · simp [Shape.lifted, Shape.map]

@[simp] theorem told_suffix (operand : NodeId) :
    (suffix (o + operand)).told o = (o + ·) <$> (suffix operand).lifted o := by
  apply told_bind_of_eq o (told_current o)
  intro kind
  split <;> simp [Shape.lifted, Shape.map]

/-! Statements. -/

@[simp] theorem told_otherwise? :
    otherwise?.told o = Option.map (o + ·) <$> otherwise?.lifted o := by
  simp [otherwise?]

@[simp] theorem told_condition : condition.told o = (o + ·) <$> condition.lifted o := by
  simp [condition]

/-- The keyword was taken before, and is passed on without its place. -/
@[simp] theorem told_branches (keyword : Token) :
    (branches keyword.unplaced).told o =
      Prod.map (List.map (o + ·)) (Option.map (o + ·)) <$> (branches keyword).lifted o := by
  apply told_bind_of_map o (told_condition o)
  intro condition
  apply told_bind_of_map o (told_expect o .direct)
  intro arrow
  apply told_bind_of_map o (told_body o)
  intro body
  apply told_bind_of_map o (g := (o + ·)) (by simp [Shape.lifted, Shape.map])
  intro branch
  apply told_bind_of_eq o (told_accept o .elseKw)
  intro more
  cases more
  · simp
  · apply told_bind_of_map o (told_accept? o .ifKw)
    intro keyword
    cases keyword <;> simp

@[simp] theorem told_conditional :
    conditional.told o = (o + ·) <$> conditional.lifted o := by
  simp [conditional, Shape.lifted, Shape.map]

@[simp] theorem told_sections :
    sections.told o = List.map (List.map (o + ·)) <$> sections.lifted o := by
  simp [sections]

@[simp] theorem told_loop : loop.told o = (o + ·) <$> loop.lifted o := by
  apply told_bind_of_map o (told_expect o .loopKw)
  intro token
  apply told_bind_of_map o (told_expect o .parOpen)
  intro opener
  apply told_bind_of_map o (told_call o .sections)
  intro sections
  rcases sections with - | ⟨first, - | ⟨second, - | ⟨third, others⟩⟩⟩ <;>
    simp [Shape.lifted, Shape.map]

@[simp] theorem told_cases : cases.told o = List.map (o + ·) <$> cases.lifted o := by
  simp [cases, Shape.lifted, Shape.map]

@[simp] theorem told_switch : switch.told o = (o + ·) <$> switch.lifted o := by
  simp [switch, Shape.lifted, Shape.map]

@[simp] theorem told_catches : catches.told o = List.map (o + ·) <$> catches.lifted o := by
  apply told_bind_of_map o (told_accept? o .catchKw)
  intro keyword
  cases keyword <;> simp [Shape.lifted, Shape.map]

@[simp] theorem told_guarded : guarded.told o = (o + ·) <$> guarded.lifted o := by
  simp [guarded, Shape.lifted, Shape.map]

@[simp] theorem told_directive : directive.told o = (o + ·) <$> directive.lifted o := by
  apply told_bind_of_eq o (told_current o)
  intro kind
  split <;> simp

@[simp] theorem told_plainStatement :
    plainStatement.told o = (o + ·) <$> plainStatement.lifted o := by
  apply told_bind_of_eq o (told_current o)
  intro kind
  split <;> simp [Shape.lifted, Shape.map]

@[simp] theorem told_statement : statement.told o = (o + ·) <$> statement.lifted o := by
  simp [statement]

end Grammar

/-- What a rule stands for yields the same when it is told of where nothing is. -/
theorem Rule.told_body (o : Nat) {y : Yield} (rule : Rule y) :
    (rule.lifted o).body.told o = y.lifted o <$> rule.body.lifted o := by
  cases rule <;> simp [body]

end ScriptSyntax
