import ScriptSyntax.Grammar.Statement
import ScriptSyntax.Proofs.Progress.Run

/-! Looking ahead. A rule that sees the end of input a few tokens ahead takes all the tokens before
it or fails, so no result rests on what the end of input was mistaken for. -/
namespace ScriptSyntax

namespace Parse

variable {α β : Type} {p : Parse α} {f : α → Parse β} {owed : Nat}

/-- How a parse goes on that still owes tokens, which it has to take before it gives a result. To
see the end of input a few tokens ahead costs as many. -/
def Repays : Parse α → Nat → (α → Nat → Prop) → Prop
  | done a, owed, post => post a owed
  | fail .., _, _ => True
  | step (.peek distance) next, owed, post =>
    ∀ k, (next k).Repays (if k = .eof then max owed distance else owed) post
  | step .shift next, owed, post => ∀ t, (next t).Repays (owed - 1) post
  | step (.call rule) next, owed, post => ∀ a, (next a).Repays (owed - rule.moves.toNat) post
  | step _ next, owed, post => ∀ answer, (next answer).Repays owed post

theorem Repays.imp {post post' : α → Nat → Prop} (repays : p.Repays owed post)
    (weaken : ∀ a n, post a n → post' a n) : p.Repays owed post' := by
  induction p generalizing owed with
  | done a => exact weaken a owed repays
  | fail blame fault => trivial
  | step action next ih => cases action <;> exact fun answer => ih answer (repays answer)

@[simp] theorem repays_bind {post : β → Nat → Prop} :
    (p >>= f).Repays owed post ↔ p.Repays owed fun a n => (f a).Repays n post := by
  change (p.bind f).Repays owed post ↔ _
  induction p generalizing owed with
  | done a => exact Iff.rfl
  | fail blame fault => exact Iff.rfl
  | step action next ih => cases action <;> exact forall_congr' fun answer => ih answer

@[simp] theorem repays_pure {a : α} {post : α → Nat → Prop} :
    (pure a : Parse α).Repays owed post ↔ post a owed := Iff.rfl

@[simp] theorem repays_fail {blame : Blame} {fault : String → Fault} {post : α → Nat → Prop} :
    (fail blame fault : Parse α).Repays owed post ↔ True := Iff.rfl

@[simp] theorem repays_current {post : Kind → Nat → Prop} :
    current.Repays owed post ↔ ∀ k, post k owed := Iff.rfl

@[simp] theorem repays_peek {distance : Nat} {post : Kind → Nat → Prop} :
    (peek distance).Repays owed post ↔
      ∀ k, post k (if k = .eof then max owed distance else owed) := Iff.rfl

@[simp] theorem repays_shift {post : Token → Nat → Prop} :
    shift.Repays owed post ↔ ∀ t, post t (owed - 1) := Iff.rfl

@[simp] theorem repays_add {shape : Shape NodeId} {token : Option Token}
    {post : NodeId → Nat → Prop} :
    (add shape token).Repays owed post ↔ ∀ id, post id owed := Iff.rfl

@[simp] theorem repays_inspect {id : NodeId} {post : Profile → Nat → Prop} :
    (inspect id).Repays owed post ↔ ∀ profile, post profile owed := Iff.rfl

@[simp] theorem repays_call {y : Yield} {rule : Rule y} {post : y.Value → Nat → Prop} :
    @Repays (no_index y.Value) (call rule) owed post ↔
      ∀ a, post a (owed - rule.moves.toNat) := Iff.rfl

/-- Whether the current token is of the kind is left open. -/
theorem repays_isAt {k : Kind} {post : Bool → Nat → Prop} (either : ∀ b, post b owed) :
    (isAt k).Repays owed post :=
  fun k' => either (k' = k)

/-- A token that has to be there is taken. -/
theorem repays_expect {k : Kind} {post : Token → Nat → Prop} (taken : ∀ t, post t (owed - 1)) :
    (expect k).Repays owed post := by
  rw [expect, repays_bind]
  apply repays_isAt
  rintro (- | -)
  · trivial
  · exact taken

/-- The parse with a fault in place of each look ahead. -/
def sightless : Parse α → Parse α
  | done a => done a
  | fail blame fault => fail blame fault
  | step (.peek _) _ => unexpected
  | step action next => step action fun answer => (next answer).sightless

/-- Without a look ahead nothing is ever owed. -/
theorem repays_sightless (p : Parse α) : p.sightless.Repays 0 fun _ owed => owed = 0 := by
  induction p with
  | done a => rfl
  | fail blame fault => trivial
  | step action next ih =>
    cases action with
    | peek distance => trivial
    | call rule => exact fun a => by simpa using ih a
    | _ => exact fun answer => ih answer

theorem Repays.of_sightless (blind : p.sightless = p) : p.Repays 0 fun _ owed => owed = 0 :=
  blind ▸ repays_sightless p

@[simp] theorem sightless_bind (p : Parse α) (f : α → Parse β) :
    (p >>= f).sightless = p.sightless >>= fun a => (f a).sightless := by
  change (p.bind f).sightless = p.sightless.bind fun a => (f a).sightless
  induction p with
  | done a => rfl
  | fail blame fault => rfl
  | step action next ih =>
    cases action with
    | peek distance => rfl
    | _ => simp only [bind, sightless, ih]

theorem sightless_bind_of (first : p.sightless = p) (rest : ∀ a, (f a).sightless = f a) :
    (p >>= f).sightless = p >>= f := by
  simp only [sightless_bind, first, rest]

@[simp] theorem sightless_pure (a : α) : (pure a : Parse α).sightless = pure a := rfl

@[simp] theorem sightless_map {g : α → β} : (g <$> p).sightless = g <$> p.sightless := by
  simp only [map_eq_pure_bind, sightless_bind, sightless_pure]

@[simp] theorem sightless_ite {c : Prop} [Decidable c] (p q : Parse α) :
    (if c then p else q).sightless = if c then p.sightless else q.sightless :=
  apply_ite sightless c p q

@[simp] theorem sightless_fail (blame : Blame) (fault : String → Fault) :
    (fail blame fault : Parse α).sightless = fail blame fault := rfl

@[simp] theorem sightless_unexpected : (unexpected : Parse α).sightless = unexpected := rfl

@[simp] theorem sightless_current : current.sightless = current := rfl

@[simp] theorem sightless_shift : shift.sightless = shift := rfl

@[simp] theorem sightless_add (shape : Shape NodeId) (token : Option Token) :
    (add shape token).sightless = add shape token := rfl

@[simp] theorem sightless_inspect (id : NodeId) : (inspect id).sightless = inspect id := rfl

@[simp] theorem sightless_settle (id : NodeId) : (settle id).sightless = settle id := rfl

@[simp] theorem sightless_freeze (id : NodeId) : (freeze id).sightless = freeze id := rfl

@[simp] theorem sightless_announce : announce.sightless = announce := rfl

@[simp] theorem sightless_call {y : Yield} (rule : Rule y) :
    @sightless (no_index y.Value) (call rule) = call rule := rfl

@[simp] theorem sightless_isAt (k : Kind) : (isAt k).sightless = isAt k := rfl

@[simp] theorem sightless_isAtAny (ks : List Kind) : (isAtAny ks).sightless = isAtAny ks := rfl

@[simp] theorem sightless_expect (k : Kind) : (expect k).sightless = expect k := by
  simp [expect]

@[simp] theorem sightless_expectAny (ks : List Kind) : (expectAny ks).sightless = expectAny ks := by
  simp [expectAny]

@[simp] theorem sightless_accept? (k : Kind) : (accept? k).sightless = accept? k := by
  simp [accept?]

@[simp] theorem sightless_accept (k : Kind) : (accept k).sightless = accept k := by
  simp [accept]

end Parse

namespace Grammar

open Parse

variable (stops : List Kind)

/-! Blocks, types and declarations. -/

@[simp] theorem sightless_statements : (statements stops).sightless = statements stops := by
  simp [statements, endOfInput, unexpectedBecause]

@[simp] theorem sightless_block : (block stops).sightless = block stops := by
  simp [block]

@[simp] theorem sightless_isAtBrace : isAtBrace.sightless = isAtBrace := rfl

@[simp] theorem sightless_bracedBlock : bracedBlock.sightless = bracedBlock := by
  simp [bracedBlock]

@[simp] theorem sightless_body : body.sightless = body := by
  simp [body]

@[simp] theorem sightless_typesUntil (close : Kind) :
    (typesUntil close).sightless = typesUntil close := by
  simp [typesUntil]

@[simp] theorem sightless_typeTerm : typeTerm.sightless = typeTerm := by
  apply sightless_bind_of (sightless_accept .multiply)
  intro pointer
  apply sightless_bind_of sightless_current
  intro kind
  split <;> simp

@[simp] theorem sightless_typeTerms : typeTerms.sightless = typeTerms := by
  simp [typeTerms]

@[simp] theorem sightless_typeList : typeList.sightless = typeList := by
  simp [typeList]

@[simp] theorem sightless_modifiers : modifiers.sightless = modifiers := by
  simp [modifiers]

@[simp] theorem sightless_declaration (typed : Bool) :
    (declaration typed).sightless = declaration typed := by
  simp [declaration]

@[simp] theorem sightless_assignment (target : NodeId) :
    (assignment target stops).sightless = assignment target stops := by
  simp [assignment]

/-! Constructs. -/

@[simp] theorem sightless_name : name.sightless = name := by
  simp [name]

@[simp] theorem sightless_arguments (close : Kind) :
    (arguments close).sightless = arguments close := by
  simp [arguments]

@[simp] theorem sightless_parameter : parameter.sightless = parameter := by
  simp [parameter]

@[simp] theorem sightless_func : (func stops).sightless = func stops := by
  simp [func]

@[simp] theorem sightless_members : members.sightless = members := by
  simp [members, endOfInput, unexpectedBecause]

@[simp] theorem sightless_memberBlock : memberBlock.sightless = memberBlock := by
  simp [memberBlock]

@[simp] theorem sightless_memberBody : memberBody.sightless = memberBody := by
  simp [memberBody]

@[simp] theorem sightless_heritage : heritage.sightless = heritage := by
  simp [heritage]

@[simp] theorem sightless_classOrStruct : classOrStruct.sightless = classOrStruct := by
  simp [classOrStruct]

@[simp] theorem sightless_interface : interface.sightless = interface := by
  simp [interface]

@[simp] theorem sightless_instanceTerm : instanceTerm.sightless = instanceTerm := by
  apply sightless_bind_of sightless_name
  intro target
  apply sightless_bind_of (sightless_accept? .parOpen)
  intro opener
  cases opener <;> simp

@[simp] theorem sightless_instances : instances.sightless = instances := by
  simp [instances]

@[simp] theorem sightless_enumeration : enumeration.sightless = enumeration := by
  simp [enumeration]

@[simp] theorem sightless_construct : (construct stops).sightless = construct stops := by
  apply sightless_bind_of sightless_current
  intro kind
  split <;> simp

/-! Collections but for maps. -/

@[simp] theorem sightless_step? (close : Kind) : (step? close).sightless = step? close := by
  simp [step?]

@[simp] theorem sightless_list (linked : Bool) : (list linked).sightless = list linked := by
  simp [list]

@[simp] theorem sightless_set : set.sightless = set := by
  simp [set]

@[simp] theorem sightless_edge (directed : Bool) :
    (edge directed stops).sightless = edge directed stops := by
  simp [edge]

@[simp] theorem sightless_graph (directed : Bool) :
    (graph directed).sightless = graph directed := by
  simp [graph]

@[simp] theorem sightless_item (sort : Item) : (item stops sort).sightless = item stops sort := by
  cases sort <;> simp [item]

@[simp] theorem sightless_items (sort : Item) :
    (items stops sort).sightless = items stops sort := by
  simp [items]

/-! Expressions. -/

@[simp] theorem sightless_expression (assignable : Bool) :
    (expression stops assignable).sightless = expression stops assignable := by
  simp [expression]

@[simp] theorem sightless_checkAssignable (assignable : Bool) :
    (checkAssignable assignable).sightless = checkAssignable assignable := by
  simp [checkAssignable]

@[simp] theorem sightless_leading : (leading stops).sightless = leading stops := by
  simp [leading]

@[simp] theorem sightless_access (target : NodeId) :
    (access target).sightless = access target := by
  simp [access]

@[simp] theorem sightless_property : property.sightless = property := by
  simp [property]

@[simp] theorem sightless_rounding (operand : NodeId) :
    (rounding operand).sightless = rounding operand := by
  apply sightless_bind_of sightless_shift
  intro token
  apply sightless_bind_of sightless_current
  intro kind
  split <;> simp

/-! Statements. -/

@[simp] theorem sightless_otherwise? : otherwise?.sightless = otherwise? := by
  simp [otherwise?]

@[simp] theorem sightless_condition : condition.sightless = condition := by
  simp [condition]

@[simp] theorem sightless_branches (keyword : Token) :
    (branches keyword).sightless = branches keyword := by
  apply sightless_bind_of sightless_condition
  intro condition
  apply sightless_bind_of (sightless_expect .direct)
  intro arrow
  apply sightless_bind_of sightless_body
  intro body
  apply sightless_bind_of (sightless_add _ _)
  intro branch
  apply sightless_bind_of (sightless_accept .elseKw)
  rintro (- | -)
  · simp
  · apply sightless_bind_of (sightless_accept? .ifKw)
    intro keyword
    cases keyword <;> simp

@[simp] theorem sightless_conditional : conditional.sightless = conditional := by
  simp [conditional]

@[simp] theorem sightless_sections : sections.sightless = sections := by
  simp [sections]

@[simp] theorem sightless_loop : loop.sightless = loop := by
  simp [loop]

@[simp] theorem sightless_cases : cases.sightless = cases := by
  simp [cases]

@[simp] theorem sightless_switch : switch.sightless = switch := by
  simp [switch]

@[simp] theorem sightless_catches : catches.sightless = catches := by
  apply sightless_bind_of (sightless_accept? .catchKw)
  intro keyword
  cases keyword <;> simp

@[simp] theorem sightless_guarded : guarded.sightless = guarded := by
  simp [guarded]

@[simp] theorem sightless_directive : directive.sightless = directive := by
  apply sightless_bind_of sightless_current
  intro kind
  split <;> simp

@[simp] theorem sightless_plainStatement : plainStatement.sightless = plainStatement := by
  apply sightless_bind_of sightless_current
  intro kind
  split <;> simp

@[simp] theorem sightless_statement : statement.sightless = statement := by
  simp [statement]

/-! Where rules look ahead. -/

theorem isAtNamedKey_repays {owed : Nat} : isAtNamedKey.Repays owed fun named owed' =>
    owed' ≤ max owed 1 ∧ (named = true → owed' = owed) := by
  rw [isAtNamedKey, repays_bind]
  apply repays_isAt
  rintro (- | -)
  · exact ⟨Nat.le_max_left owed 1, by simp⟩
  · rw [if_pos rfl, repays_bind, repays_peek]
    intro k
    by_cases eof : k = .eof
    · rw [if_pos eof, eof]
      exact ⟨Nat.le_refl (max owed 1), by simp⟩
    · rw [if_neg eof]
      exact ⟨Nat.le_max_left owed 1, fun _ => rfl⟩

theorem key_repays (named : Bool) : (key named).Repays 0 fun _ owed => owed = 0 := by
  cases named with
  | false => exact .of_sightless (by simp [key])
  | true =>
    rw [key, if_pos rfl, repays_bind]
    refine isAtNamedKey_repays.imp ?_
    rintro (- | -) owed ⟨-, settled⟩
    · trivial
    · simp [settled rfl]

theorem entries_repays (named : Bool) : (entries named).Repays 0 fun _ owed => owed = 0 := by
  rw [entries, repays_bind]
  apply repays_isAt
  rintro (- | -)
  · rw [if_neg (by simp), repays_bind]
    refine (key_repays named).imp ?_
    rintro key _ rfl
    exact .of_sightless (by simp)
  · rfl

theorem map_repays : map.Repays 0 fun _ owed => owed = 0 := by
  rw [map, repays_bind]
  refine repays_expect fun token => ?_
  rw [repays_bind]
  refine isAtNamedKey_repays.imp ?_
  rintro named owed ⟨few, -⟩
  rw [repays_bind, repays_call]
  intro entries
  rw [repays_bind]
  refine repays_expect fun close => ?_
  simp only [repays_add]
  intro id
  omega

theorem collection_repays : collection.Repays 0 fun _ owed => owed = 0 := by
  rw [collection, repays_bind, repays_current]
  intro kind
  split
  case h_5 => exact map_repays
  all_goals exact .of_sightless (by simp)

/-- The types that may follow a name are looked for up to two tokens ahead. -/
theorem isAtTypeList_repays : isAtTypeList.Repays 0 fun typed owed =>
    owed ≤ 2 ∧ (typed = true → owed = 0) := by
  rw [isAtTypeList, repays_bind, repays_peek]
  intro first
  by_cases eof : first = .eof
  · subst eof
    exact ⟨Nat.le_succ 1, fun typed => absurd typed (by decide)⟩
  rw [if_neg eof]
  split
  · simp
  split
  · rw [repays_bind, repays_peek]
    intro second
    by_cases eof' : second = .eof
    · subst eof'
      exact ⟨Nat.le_refl 2, fun typed => absurd typed (by decide)⟩
    · simp [eof']
  · simp

theorem isAtInlineTypes_repays (left : NodeId) : (isAtInlineTypes left).Repays 0 fun typed owed =>
    owed ≤ 2 ∧ (typed = true → owed = 0) := by
  rw [isAtInlineTypes, repays_bind, repays_inspect]
  intro profile
  split
  · exact isAtTypeList_repays
  · simp

theorem binary_repays (left : NodeId) (assignable : Bool) {owed : Nat} (few : owed ≤ 2) :
    (binary left stops assignable).Repays owed fun _ owed => owed = 0 := by
  simp only [binary, repays_bind, repays_shift, repays_call, repays_add, Rule.moves,
    Bool.toNat_true]
  omega

theorem weave_repays (left : NodeId) (assignable : Bool) :
    (weave left stops assignable).Repays 0 fun _ owed => owed = 0 := by
  rw [weave, repays_bind, repays_current]
  intro kind
  split
  · exact .of_sightless (by simp)
  split
  · exact .of_sightless (by simp)
  split
  · rw [repays_bind]
    refine (isAtInlineTypes_repays left).imp ?_
    rintro (- | -) owed ⟨few, settled⟩
    · exact binary_repays stops left assignable few
    · rw [settled rfl]
      exact .of_sightless (by simp)
  split
  · exact .of_sightless (by simp)
  split
  · exact binary_repays stops left assignable (Nat.zero_le 2)
  · exact .of_sightless (by simp)

theorem suffix_repays (operand : NodeId) : (suffix operand).Repays 0 fun _ owed => owed = 0 := by
  rw [suffix, repays_bind, repays_current]
  intro kind
  split
  case h_8 =>
    rw [repays_bind, repays_peek]
    intro next
    by_cases eof : next = .eof
    · subst eof
      simp [show beginsTerm .eof = false by decide]
    · rw [if_neg eof]
      split
      · rfl
      · exact .of_sightless (by simp)
  all_goals exact .of_sightless (by simp)

theorem term_repays : (term stops).Repays 0 fun _ owed => owed = 0 := by
  rw [term, repays_bind, repays_current]
  intro kind
  split
  · exact .of_sightless (by simp)
  · split
    case h_9 =>
      split
      · exact .of_sightless (by simp)
      split
      · rw [repays_bind]
        refine collection_repays.imp ?_
        rintro value _ rfl
        simp
      · trivial
    all_goals exact .of_sightless (by simp)

end Grammar

theorem Rule.body_repays {y : Yield} (rule : Rule y) :
    rule.body.Repays 0 fun _ owed => owed = 0 := by
  cases rule with
  | weave left stops assignable => exact Grammar.weave_repays stops left assignable
  | term stops => exact Grammar.term_repays stops
  | suffix operand => exact Grammar.suffix_repays operand
  | entries named => exact Grammar.entries_repays named
  | _ => exact .of_sightless (by simp [body])

end ScriptSyntax
