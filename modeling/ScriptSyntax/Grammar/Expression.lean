import ScriptSyntax.Grammar.Collection
import ScriptSyntax.Token.Kind

/-! Expressions. Operators are chained to the left as they are read, and the finished chain is
regrouped by precedence and frozen. -/
namespace ScriptSyntax.Grammar

open Parse

def literalShape? : Kind → Option (Shape NodeId)
  | .intVal => some .intLiteral
  | .realVal => some .realLiteral
  | .strVal => some .stringLiteral
  | .trueKw | .falseKw => some .booleanLiteral
  | .nullKw => some .nullLiteral
  | _ => none

/-- Kinds that stand for a value by name. -/
def namesValue (k : Kind) : Bool :=
  [.var, .thisKw, .superKw, .printKw, .sizeKw, .hashKw].contains k

/-- A literal or a name, which is a term by a single token. -/
def atomShape? (k : Kind) : Option (Shape NodeId) :=
  literalShape? k <|> if namesValue k then some .name else none

def opensContainer (k : Kind) : Bool := (Container.ofOpener? k).isSome

def abbreviatesContainer (k : Kind) : Bool := (Container.ofShorthand? k).isSome

/-- Whether a term can begin with a token of the kind. -/
def beginsTerm (k : Kind) : Bool :=
  k.isLiteral || k.isConstruct || namesValue k || opensContainer k || abbreviatesContainer k ||
    [.parOpen, .multiply, .subtract, .add, .lNot, .bNot, .increment, .decrement].contains k

def namesPlainType (k : Kind) : Bool := k.isType && !k.isLiteral

/-- Whether types follow the `<` at the current token. -/
def isAtTypeList : Parse Bool := do
  let first ← peek 1
  if namesPlainType first then return true
  else if first = .multiply || opensContainer first then return namesPlainType (← peek 2)
  else return false

/-- Whether `left` is a name that types follow. -/
def isAtInlineTypes (left : NodeId) : Parse Bool := do
  if (← inspect left).openName then isAtTypeList else return false

def expression (stops : List Kind) (assignable : Bool) : Parse NodeId := do
  if ← isAtAny stops then add .noOp none
  else
    let first ← call (.term stops)
    call (.weave first stops assignable)

/-- The fault of an assignment where none may stand. -/
def checkAssignable (assignable : Bool) : Parse Unit :=
  if assignable then pure () else fail .here .assignmentNotAllowed

def binary (left : NodeId) (stops : List Kind) (assignable : Bool) : Parse NodeId := do
  let token ← shift
  let right ← call (.term stops)
  let chain ← add (.binaryOp left right) (some token)
  call (.weave chain stops assignable)

def weave (left : NodeId) (stops : List Kind) (assignable : Bool) : Parse NodeId := do
  let kind ← current
  if stops.contains kind then settle left
  else if assigners.contains kind then
    checkAssignable assignable
    let target ← settle left
    assignment target stops
  else if kind = .lessThan then
    if ← isAtInlineTypes left then
      let types ← typeList
      let declaration ← add (.declare [] left types) none
      if ← isAtAny assigners then
        checkAssignable assignable
        assignment declaration stops
      else return declaration
    else binary left stops assignable
  else if kind = .ternary then
    let token ← shift
    let center ← call (.expression [.colon] false)
    let _ ← expect .colon
    let right ← call (.expression stops false)
    let chain ← add (.ternaryOp left center right) (some token)
    call (.weave chain stops assignable)
  else if kind.isBinaryOperator then binary left stops assignable
  else settle left

/-- An operator before its operand. -/
def leading (stops : List Kind) : Parse NodeId := do
  let token ← shift
  let operand ← call (.term stops)
  add (.unaryOp operand .leading) (some token)

def term (stops : List Kind) : Parse NodeId := do
  let kind ← current
  if let some shape := atomShape? kind then
    let atom ← add shape (some (← shift))
    if namesValue kind || kind = .strVal then call (.suffix atom) else return atom
  else match kind with
    | .parOpen =>
      let _ ← shift
      let inner ← call (.expression [.parClose] false)
      let _ ← expect .parClose
      call (.suffix inner)
    | .multiply =>
      let star ← shift
      let operand ← call (.term stops)
      add (.unaryOp operand .leading) (some { star with kind := .point })
    | .subtract | .lNot | .bNot | .increment | .decrement => leading stops
    | .add =>
      let _ ← shift
      call (.term stops)
    | _ =>
      if kind.isConstruct then construct stops
      else if opensContainer kind || abbreviatesContainer kind then
        let value ← collection
        call (.suffix value)
      else unexpected

/-- An index, as in `[i]`, or a slice, as in `[a : b]` or `[a : b : c]`. -/
def access (target : NodeId) : Parse NodeId := do
  let token ← expect .arrOpen
  let first ← call (.expression [.colon, .arrClose] false)
  if ← accept .colon then
    let stop ← call (.expression [.colon, .arrClose] false)
    let step ← step? .arrClose
    let _ ← expect .arrClose
    add (.slice target first stop step) (some token)
  else
    let _ ← expect .arrClose
    add (.index target first) (some token)

/-- A name or a parenthesised expression. -/
def property : Parse NodeId := do
  if ← accept .parOpen then
    let inner ← call (.expression [.parClose] false)
    let _ ← expect .parClose
    return inner
  else name

/-- A backquote rounds to the places after it, or to none. What rounds to places is frozen. -/
def rounding (operand : NodeId) : Parse NodeId := do
  let token ← shift
  match atomShape? (← current) with
  | some shape =>
    let places ← add shape (some (← shift))
    let rounded ← add (.binaryOp operand places) (some token)
    freeze rounded
    return rounded
  | none => add (.unaryOp operand .trailing) (some token)

def suffix (operand : NodeId) : Parse NodeId := do
  let kind ← current
  match kind with
  | .arrOpen =>
    let node ← access operand
    call (.suffix node)
  | .period | .optChain =>
    let token ← shift
    let property ← property
    let node ← add (.get operand property (kind = .optChain)) (some token)
    call (.suffix node)
  | .parOpen =>
    let token ← shift
    let args ← arguments .parClose
    let _ ← expect .parClose
    let node ← add (.call operand args) (some token)
    call (.suffix node)
  | .increment | .decrement | .totalRef =>
    let node ← add (.unaryOp operand .trailing) (some (← shift))
    call (.suffix node)
  | .bAnd =>
    if beginsTerm (← peek 1) then return operand
    else
      let mark ← shift
      let node ← add (.unaryOp operand .trailing) (some { mark with kind := .deref })
      call (.suffix node)
  | .round =>
    let node ← rounding operand
    call (.suffix node)
  | _ => return operand

end ScriptSyntax.Grammar
