import ScriptSyntax.Grammar.Parse

/-! Blocks of statements. -/
namespace ScriptSyntax.Grammar

open Parse

def endOfInput : Parse α := unexpectedBecause "unexpected end of input"

def statements (stops : List Kind) : Parse (List NodeId) := do
  if ← isAtAny stops then return []
  else if ← isAt .eof then endOfInput
  else
    let first ← call .statement
    return first :: (← call (.statements stops))

/-- Statements up to a token of one of the kinds, which stays. -/
def block (stops : List Kind) : Parse NodeId := do
  let statements ← call (.statements stops)
  add (.block statements) none

def isAtBrace : Parse Bool := isAtAny [.scopeOpen, .mapType]

/-- A block between braces. The empty one is the single token `{}`. -/
def bracedBlock : Parse NodeId := do
  if ← accept .mapType then add (.block []) none
  else
    let _ ← expect .scopeOpen
    let block ← block [.scopeClose]
    let _ ← expect .scopeClose
    return block

/-- The body of a directive: a braced block, or a single statement. -/
def body : Parse NodeId := do
  if ← isAtBrace then bracedBlock
  else
    let statement ← call .statement
    add (.block [statement]) none

end ScriptSyntax.Grammar
