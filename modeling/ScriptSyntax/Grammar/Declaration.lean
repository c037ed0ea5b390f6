import ScriptSyntax.Grammar.Parse

/-! Types, declarations and assignments. -/
namespace ScriptSyntax.Grammar

open Parse

/-- Kinds that are a type by themselves. -/
def namesType (k : Kind) : Bool := (k.isType && !k.isContainer) || k = .var

/-- Types up to a token of kind `close`, which stays. -/
def typesUntil (close : Kind) : Parse (List TypeTerm) := do
  let types ← call .typeTerms
  if ← isAt close then return types else unexpected

/-- A name, a shorthand, or the types of the elements between the marks of a container. A star
before it makes it a pointer. -/
def typeTerm : Parse TypeTerm := do
  let pointer ← accept .multiply
  let kind ← current
  match Container.ofOpener? kind, Container.ofShorthand? kind with
  | some container, _ =>
    let token ← shift
    let elements ← typesUntil container.closer
    let _ ← expect container.closer
    return .container token pointer container elements
  | none, some container => return .container (← shift) pointer container []
  | none, none =>
    if namesType kind then return .named (← shift) pointer else fail .here .invalidType

/-- One type, then a further one after each comma. -/
def typeTerms : Parse (List TypeTerm) := do
  let first ← call .typeTerm
  if ← accept .comma then return first :: (← call .typeTerms) else return [first]

/-- Types between angle brackets. -/
def typeList : Parse (List TypeTerm) := do
  let _ ← expect .lessThan
  let types ← typesUntil .greaterThan
  let _ ← expect .greaterThan
  return types

def modifiers : Parse (List Token) := do
  if (← current).isModifier then
    let first ← shift
    return first :: (← call .modifiers)
  else return []

/-- An optional mark, modifiers, a name, and its types, which have to be there if `typed`. With
neither modifiers nor types the name may begin a chain of accesses, which is then the result. -/
def declaration (typed : Bool) : Parse NodeId := do
  let mark ← accept? .atSign
  let modifiers ← call .modifiers
  let name ← add .name (some (← expect .var))
  if typed || (← isAt .lessThan) then
    let types ← typeList
    add (.declare modifiers name types) mark
  else if modifiers.isEmpty && (← isAtAny [.period, .optChain, .arrOpen]) then
    call (.suffix name)
  else add (.declare modifiers name []) mark

def assigners : List Kind := [.assign, .castAssign]

/-- A value assigned to a target, after `=` or `:=`. -/
def assignment (target : NodeId) (stops : List Kind) : Parse NodeId := do
  let cast ← isAt .castAssign
  let token ← expectAny assigners
  let value ← call (.expression stops false)
  add (.assignment target value cast) (some token)

end ScriptSyntax.Grammar
