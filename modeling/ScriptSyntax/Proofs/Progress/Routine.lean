import ScriptSyntax.Proofs.Progress.Grammar

/-! The functions that the grammar is made of, and the loops among them. -/
namespace ScriptSyntax

/-- The rules that go round in a loop. The first one runs a round and calls the second one for what
is left. -/
inductive Rule.Repeats : {y : Yield} → Rule y → Rule y → Prop where
  | statements (stops : List Kind) : Repeats (statements stops) (statements stops)
  | members : Repeats members members
  | items (stops : List Kind) (item : Item) : Repeats (items stops item) (items stops item)
  | sections : Repeats sections sections
  | cases : Repeats cases cases
  | catches : Repeats catches catches
  | branches (keyword keyword' : Token) : Repeats (branches keyword) (branches keyword')
  | entries (named : Bool) : Repeats (entries named) (entries named)
  | instances : Repeats instances instances
  | suffix (operand operand' : NodeId) : Repeats (suffix operand) (suffix operand')
  | weave (left left' : NodeId) (stops : List Kind) (assignable : Bool) :
      Repeats (weave left stops assignable) (weave left' stops assignable)
  | modifiers : Repeats modifiers modifiers
  | typeTerms : Repeats typeTerms typeTerms

theorem Rule.Repeats.rank_eq {y : Yield} {rule next : Rule y} (repeats : rule.Repeats next) :
    next.rank = rule.rank := by
  cases repeats <;> rfl

namespace Grammar

open Parse

/-- The functions of the grammar that may be called at a token of the kind, and whether each success
of them takes a token. A list or a graph takes its opening mark without a look at it, since its
caller has seen it. -/
inductive Routine (kind : Kind) : {α : Type} → Parse α → Bool → Prop where
  | rule {y : Yield} (rule : Rule y) : Routine kind (call rule) rule.moves
  | block (stops : List Kind) : Routine kind (block stops) false
  | bracedBlock : Routine kind bracedBlock true
  | body : Routine kind body true
  | directive : Routine kind directive true
  | conditional : Routine kind conditional true
  | loop : Routine kind loop true
  | switch : Routine kind switch true
  | guarded : Routine kind guarded true
  | condition : Routine kind condition true
  | otherwise? : Routine kind otherwise? false
  | declaration (typed : Bool) : Routine kind (declaration typed) true
  | assignment (target : NodeId) (stops : List Kind) : Routine kind (assignment target stops) true
  | typeList : Routine kind typeList true
  | typesUntil (close : Kind) : Routine kind (typesUntil close) true
  | arguments (close : Kind) : Routine kind (arguments close) false
  | access (target : NodeId) : Routine kind (access target) true
  | collection : Routine kind collection true
  | list (linked : Bool) (opened : kind ≠ .eof) : Routine kind (list linked) true
  | map : Routine kind map true
  | graph (directed : Bool) (opened : kind ≠ .eof) : Routine kind (graph directed) true
  | edge (directed : Bool) (stops : List Kind) : Routine kind (edge directed stops) true
  | construct (stops : List Kind) : Routine kind (construct stops) true
  | func (stops : List Kind) : Routine kind (func stops) true
  | classOrStruct : Routine kind classOrStruct true
  | interface : Routine kind interface true
  | enumeration : Routine kind enumeration true
  | heritage : Routine kind heritage true
  | memberBlock : Routine kind memberBlock false
  | memberBody : Routine kind memberBody true

variable {α : Type} {p : Parse α} {kind : Kind} {takes : Bool}

/-- Each function makes progress, and takes a token where it is said to. -/
theorem Routine.proceeds (routine : Routine kind p takes) :
    p.Proceeds 4 false kind fun _ moved _ => takes = true → moved = true := by
  have taken {p : Parse α} (moves : Moves p 4 false kind) :
      p.Proceeds 4 false kind fun _ moved _ => true = true → moved = true :=
    moves.imp fun _ _ _ taken _ => taken
  cases routine with
  | rule rule =>
    have := rule.rank_le
    exact ⟨.inr (by omega), fun _ _ moves => moves⟩
  | block stops => simp [Grammar.block, Rule.rank]
  | bracedBlock => exact taken bracedBlock_moves
  | body =>
    refine taken ?_
    simp only [Grammar.body, isAtBrace, proceeds_bind, proceeds_isAtAny]
    split
    · exact bracedBlock_moves
    · exact (lower_moves (by decide) rfl).bind fun statement k => by simp
  | directive => exact taken directive_moves
  | conditional => exact taken conditional_moves
  | loop => exact taken loop_moves
  | switch => exact taken switch_moves
  | guarded => exact taken guarded_moves
  | condition => exact taken condition_moves
  | otherwise? =>
    refine Proceeds.still ?_ rfl
    simp only [Grammar.otherwise?, proceeds_bind, proceeds_accept]
    split
    · simpa using fun k => body_moves.imp fun _ _ _ _ => trivial
    · trivial
  | declaration typed => exact taken (declaration_moves typed (.inr (by decide)))
  | assignment target stops => exact taken (assignment_moves target stops)
  | typeList => exact taken typeList_moves
  | typesUntil close =>
    refine taken ((lower_moves (by decide) rfl).bind fun types k => ?_)
    rw [proceeds_bind, proceeds_isAt]
    split <;> simp
  | arguments close => simp [Grammar.arguments, Rule.rank]
  | access target => exact taken (access_moves target)
  | collection => exact taken collection_moves
  | list linked opened => exact taken (list_moves linked opened)
  | map => exact taken map_moves
  | graph directed opened => exact taken (graph_moves directed opened)
  | edge directed stops => exact taken (edge_moves directed stops (.inr (by decide)))
  | construct stops => exact taken (construct_moves stops)
  | func stops => exact taken (func_moves stops)
  | classOrStruct => exact taken classOrStruct_moves
  | interface => exact taken interface_moves
  | enumeration => exact taken enumeration_moves
  | heritage => exact taken heritage_moves
  | memberBlock => simp [Grammar.memberBlock, Rule.rank]
  | memberBody => exact taken memberBody_moves

end Grammar
end ScriptSyntax
