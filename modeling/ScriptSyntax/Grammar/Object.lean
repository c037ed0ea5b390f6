import ScriptSyntax.Grammar.Block
import ScriptSyntax.Grammar.Declaration

/-! Functions, classes, structures, interfaces and enumerations. Each is a term that begins with
its keyword. -/
namespace ScriptSyntax.Grammar

open Parse

def name : Parse NodeId := do
  add .name (some (← expect .var))

/-- Arguments up to a token of kind `close`, which stays. -/
def arguments (close : Kind) : Parse (List NodeId) :=
  call (.items [close] (.expression false))

/-- A declaration with an optional default value. -/
def parameter : Parse NodeId := do
  let declaration ← declaration false
  if ← isAtAny assigners then assignment declaration [.comma, .parClose]
  else return declaration

/-- A function. Its body is a braced block, or a value that it returns. -/
def func (stops : List Kind) : Parse NodeId := do
  let token ← expect .funcKw
  let _ ← expect .parOpen
  let params ← call (.items [.parClose] .parameter)
  let _ ← expect .parClose
  let _ ← expect .direct
  if ← isAtBrace then
    let body ← bracedBlock
    add (.func params body) (some token)
  else
    let value ← call (.expression stops false)
    let result ← add (.returnStep value) none
    let body ← add (.block [result]) none
    add (.func params body) (some token)

def members : Parse (List NodeId) := do
  if ← isAt .scopeClose then return []
  else if ← isAt .eof then endOfInput
  else
    let first ← call .statement
    let profile ← inspect first
    if profile.isMember then return first :: (← call .members)
    else fail .start fun _ => .invalidClassStatement profile.tag

def memberBlock : Parse NodeId := do
  let members ← call .members
  add (.block members) none

/-- Members between braces. The empty body is the single token `{}`. -/
def memberBody : Parse NodeId := do
  if ← accept .mapType then add (.block []) none
  else
    let _ ← expect .scopeOpen
    let body ← memberBlock
    let _ ← expect .scopeClose
    return body

/-- The names after a keyword in parentheses, those of interfaces after a colon, and the arrow. -/
def heritage : Parse (List NodeId × List NodeId) := do
  let _ ← expect .parOpen
  let supers ← call (.items [.colon, .parClose] .name)
  let interfaces ←
    if ← accept .colon then call (.items [.parClose] .name) else pure []
  let _ ← expect .parClose
  let _ ← expect .direct
  return (supers, interfaces)

def classOrStruct : Parse NodeId := do
  let isClass ← isAt .classKw
  let token ← expectAny [.classKw, .structKw]
  let (supers, interfaces) ← heritage
  let body ← memberBody
  let shape : Shape NodeId :=
    if isClass then .classDef supers interfaces body else .structDef supers interfaces body
  add shape (some token)

def interface : Parse NodeId := do
  let token ← expect .interfaceKw
  let _ ← expect .parOpen
  let supers ← call (.items [.parClose] .name)
  let _ ← expect .parClose
  let _ ← expect .direct
  let body ← memberBody
  add (.interfaceDef supers body) (some token)

/-- A name, with arguments in parentheses or without. -/
def instanceTerm : Parse NodeId := do
  let target ← name
  match ← accept? .parOpen with
  | none => return target
  | some token =>
    let args ← arguments .parClose
    let _ ← expect .parClose
    add (.call target args) (some token)

/-- Instances separated by commas; one may also stand before the `;` that ends them. -/
def instances : Parse (List NodeId) := do
  let first ← instanceTerm
  if ← accept .comma then
    if ← isAt .eol then return [first] else return first :: (← call .instances)
  else return [first]

/-- An enumeration: its instances, then its members after a `;`. -/
def enumeration : Parse NodeId := do
  let token ← expect .enumKw
  let (supers, interfaces) ← heritage
  let _ ← expect .scopeOpen
  let instances ← call .instances
  let _ ← expect .eol
  let body ← memberBlock
  let _ ← expect .scopeClose
  add (.enumDef supers interfaces instances body) (some token)

/-- The kinds `stops` end a function whose body is a value. -/
def construct (stops : List Kind) : Parse NodeId := do
  match ← current with
  | .funcKw => func stops
  | .classKw | .structKw => classOrStruct
  | .interfaceKw => interface
  | .enumKw => enumeration
  | _ => unexpected

end ScriptSyntax.Grammar
