import ScriptSyntax.Token.Basic
import ScriptSyntax.Text.Quoted

/-! What can be wrong with a source text, where, and how it is reported. -/
namespace ScriptSyntax

def Position.record (p : Position) : Value :=
  .record [("line", .number p.point.line), ("column", .number p.point.column),
    ("file", .text p.file)]

inductive Fault where
  | unrecognisedCharacter (character : Char)
  | unterminatedString (delimiter : Char)
  | unterminatedComment
  | unexpectedToken (token : String)
  | unexpectedTokenDetailed (token message : String)
  | expectedToken (expected found : String)
  | invalidClassStatement (statement : String)
  | invalidMapKey (key : String)
  | invalidType (token : String)
  | assignmentNotAllowed (token : String)
  | tooManyLoopSections (count : Nat)
  | lookaheadExceeded (depth : Nat)
deriving DecidableEq, Inhabited

/-- Whether a fault lies in the characters or in the order of the tokens. -/
inductive FaultClass where
  | lexical
  | syntactic
deriving DecidableEq

def FaultClass.name : FaultClass → String
  | .lexical => "Lexical"
  | .syntactic => "Syntax"

namespace Fault

open Text (quotedText quotedChar)

def name : Fault → String
  | unrecognisedCharacter .. => "UnrecognisedCharacter"
  | unterminatedString .. => "UnterminatedString"
  | unterminatedComment => "UnterminatedComment"
  | unexpectedToken .. => "UnexpectedToken"
  | unexpectedTokenDetailed .. => "UnexpectedTokenDetailed"
  | expectedToken .. => "ExpectedToken"
  | invalidClassStatement .. => "InvalidClassStatement"
  | invalidMapKey .. => "InvalidMapKey"
  | invalidType .. => "InvalidType"
  | assignmentNotAllowed .. => "AssignmentNotAllowed"
  | tooManyLoopSections .. => "TooManyLoopSections"
  | lookaheadExceeded .. => "LookaheadExceeded"

def faultClass : Fault → FaultClass
  | unrecognisedCharacter .. | unterminatedString .. | unterminatedComment => .lexical
  | _ => .syntactic

def message : Fault → String
  | unrecognisedCharacter c => "unrecognised character: " ++ quotedChar c
  | unterminatedString d => "unterminated string literal, expected " ++ quotedChar d
  | unterminatedComment => "unterminated block comment"
  | unexpectedToken t => "unexpected token: " ++ quotedText t
  | unexpectedTokenDetailed t m => "unexpected token (" ++ quotedText m ++ "): " ++ quotedText t
  | expectedToken e f => "expected " ++ quotedText e ++ ", found " ++ quotedText f
  | invalidClassStatement s => "invalid statement in class body: " ++ quotedText s
  | invalidMapKey k => "invalid map key: " ++ quotedText k
  | invalidType t => "invalid type: " ++ quotedText t
  | assignmentNotAllowed t => "assignment not allowed here: " ++ quotedText t
  | tooManyLoopSections n => "too many loop sections: " ++ toString n
  | lookaheadExceeded n =>
    "lookahead of " ++ toString n ++ " tokens exceeds the parser's limit"

/-- Advice on how to mend the fault, where there is some. -/
def tip : Fault → Option String
  | unrecognisedCharacter .. => none
  | unterminatedString d => some ("String is never closed, add a closing `" ++ d.toString ++ "`")
  | unterminatedComment => some "Block comment is never closed, add `*/`"
  | unexpectedToken t =>
    some ("Unexpected token: `" ++ t ++ "`, did you miss a semicolon?")
  | unexpectedTokenDetailed t m => some ("Unexpected token: `" ++ t ++ "`, " ++ m)
  | expectedToken e f => some ("Expected `" ++ e ++ "`, found `" ++ f ++ "`")
  | invalidClassStatement .. =>
    some "Only assignments and typed declarations may appear in a class body"
  | invalidMapKey k =>
    some ("Key `" ++ k ++ "` must be a name, as the first key of this map is a name")
  | invalidType t => some ("`" ++ t ++ "` cannot be used as a type")
  | assignmentNotAllowed .. =>
    some "Assignments are statements and cannot appear inside an expression"
  | tooManyLoopSections n =>
    some ("A loop header takes at most 3 `:`-separated sections, found " ++ toString n)
  | lookaheadExceeded .. => none

def fields : Fault → List (String × Value)
  | unrecognisedCharacter c => [("character", .text c.toString)]
  | unterminatedString d => [("delimiter", .text d.toString)]
  | unterminatedComment => []
  | unexpectedToken t => [("token", .text t)]
  | unexpectedTokenDetailed t m => [("token", .text t), ("message", .text m)]
  | expectedToken e f => [("expected", .text e), ("found", .text f)]
  | invalidClassStatement s => [("statement", .text s)]
  | invalidMapKey k => [("key", .text k)]
  | invalidType t => [("token", .text t)]
  | assignmentNotAllowed t => [("token", .text t)]
  | tooManyLoopSections n => [("count", .number n)]
  | lookaheadExceeded n => [("depth", .number n)]

/-- A fault without fields is written as its bare name. -/
def record (f : Fault) : Value :=
  match f.fields with
  | [] => .text f.name
  | fields => .record [(f.name, .record fields)]

end Fault

structure Error where
  fault : Fault
  position : Position
deriving DecidableEq, Inhabited

namespace Error

def message (e : Error) : String :=
  e.fault.message ++ " at " ++ e.position.text

def record (e : Error) : Value :=
  .record [("internal_error", e.fault.record), ("position", e.position.record)]

end Error
end ScriptSyntax
