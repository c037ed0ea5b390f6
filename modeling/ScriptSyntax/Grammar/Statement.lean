import ScriptSyntax.Grammar.Expression

/-! Statements and directives, and with them the bodies of all rules. -/
namespace ScriptSyntax
namespace Grammar

open Parse

/-- The body after `else =>`, where there is one. -/
def otherwise? : Parse (Option NodeId) := do
  if ← accept .elseKw then
    let _ ← expect .direct
    return some (← body)
  else return none

/-- An expression in parentheses. -/
def condition : Parse NodeId := do
  let _ ← expect .parOpen
  let condition ← call (.expression [.parClose] false)
  let _ ← expect .parClose
  return condition

/-- A condition with its body, then what an `else` adds: more branches, or the body that is taken
where no condition holds. -/
def branches (keyword : Token) : Parse (List NodeId × Option NodeId) := do
  let condition ← condition
  let _ ← expect .direct
  let body ← body
  let branch ← add (.branch condition body) (some keyword)
  if ← accept .elseKw then
    match ← accept? .ifKw with
    | some keyword =>
      let (others, otherwise) ← call (.branches keyword)
      return (branch :: others, otherwise)
    | none =>
      let _ ← expect .direct
      return ([branch], some (← Grammar.body))
  else return ([branch], none)

/-- A conditional, which begins with `if`. -/
def conditional : Parse NodeId := do
  let token ← expect .ifKw
  let (branches, otherwise) ← call (.branches token)
  add (.conditional branches otherwise) (some token)

def sections : Parse (List (List NodeId)) := do
  let first ← call (.items [.colon, .parClose] (.expression true))
  if ← accept .colon then return first :: (← call .sections) else return [first]

/-- A loop. A single section of its header holds the conditions; of two, the first holds what is
done before them, and a third what is done after each turn. -/
def loop : Parse NodeId := do
  let token ← expect .loopKw
  let _ ← expect .parOpen
  let sections ← call .sections
  if 3 < sections.length then fail .start fun _ => .tooManyLoopSections sections.length
  else
    let _ ← expect .parClose
    let _ ← expect .direct
    let body ← body
    let otherwise ← otherwise?
    let shape : Shape NodeId := match sections with
      | [conditions] => .loop [] conditions [] body otherwise
      | init :: conditions :: steps => .loop init conditions (steps.headD []) body otherwise
      | [] => .loop [] [] [] body otherwise
    add shape (some token)

/-- The arms of a switch up to its closing brace, each with statements after a colon. -/
def cases : Parse (List NodeId) := do
  if ← isAt .scopeClose then return []
  else
    let valued ← isAt .caseKw
    let label ← expectAny [.caseKw, .defaultKw]
    let value ←
      if valued then some <$> call (.expression [.colon] false) else pure none
    let _ ← expect .colon
    let body ← block [.caseKw, .defaultKw, .scopeClose]
    let first ← add (.caseArm value body) (some label)
    return first :: (← call .cases)

/-- A switch over the value in parentheses. -/
def switch : Parse NodeId := do
  let token ← expect .switchKw
  let subject ← condition
  let _ ← expect .direct
  let _ ← expect .scopeOpen
  let cases ← call .cases
  let _ ← expect .scopeClose
  let otherwise ← otherwise?
  add (.switch subject cases otherwise) (some token)

/-- The arms that catch, each with a typed declaration and a braced block. -/
def catches : Parse (List NodeId) := do
  match ← accept? .catchKw with
  | none => return []
  | some token =>
    let declaration ← declaration true
    let body ← bracedBlock
    let first ← add (.catchArm declaration body) (some token)
    return first :: (← call .catches)

/-- A guarded block with the arms that catch what it raises. -/
def guarded : Parse NodeId := do
  let token ← expect .tryKw
  let body ← bracedBlock
  let catches ← call .catches
  let otherwise ← otherwise?
  add (.guarded body catches otherwise) (some token)

/-- Directives own their bodies and end without a `;`. Only some of their keywords open one. -/
def directive : Parse NodeId := do
  match ← current with
  | .ifKw => conditional
  | .loopKw => loop
  | .switchKw => switch
  | .tryKw => guarded
  | _ => unexpected

/-- A statement that a `;` has to follow. -/
def plainStatement : Parse NodeId := do
  let kind ← current
  match kind with
  | .returnKw | .deferKw =>
    let token ← shift
    let value ← call (.expression [.eol] false)
    add (if kind = .returnKw then .returnStep value else .deferStep value) (some token)
  | .passKw => add .pass (some (← shift))
  | .continueKw => add .continueStep (some (← shift))
  | .breakKw => add .breakStep (some (← shift))
  | .eol => add .noOp none
  | _ =>
    if kind = .atSign || kind.isModifier then
      let declaration ← declaration false
      if ← isAtAny assigners then assignment declaration [.eol] else return declaration
    else call (.expression [.eol] true)

def statement : Parse NodeId := do
  announce
  if (← current).isDirective then directive
  else
    let statement ← plainStatement
    let _ ← expect .eol
    return statement

end Grammar

/-- What a rule stands for. -/
def Rule.body : {y : Yield} → Rule y → Parse y.Value
  | _, statement => Grammar.statement
  | _, statements stops => Grammar.statements stops
  | _, expression stops assignable => Grammar.expression stops assignable
  | _, weave left stops assignable => Grammar.weave left stops assignable
  | _, term stops => Grammar.term stops
  | _, suffix operand => Grammar.suffix operand
  | _, typeTerm => Grammar.typeTerm
  | _, typeTerms => Grammar.typeTerms
  | _, modifiers => Grammar.modifiers
  | _, items stops item => Grammar.items stops item
  | _, entries named => Grammar.entries named
  | _, sections => Grammar.sections
  | _, branches keyword => Grammar.branches keyword
  | _, cases => Grammar.cases
  | _, catches => Grammar.catches
  | _, instances => Grammar.instances
  | _, members => Grammar.members

end ScriptSyntax
