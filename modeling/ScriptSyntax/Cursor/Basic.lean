import ScriptSyntax.Scanner.Basic
import ScriptSyntax.Tree.Regroup

/-! The cursor: the current token of a source, the tokens read ahead of it, the arena of the nodes
made so far, and what was noted down on the way. What fails leaves the cursor usable. -/
namespace ScriptSyntax

/-- What is noted down while a program is parsed. -/
inductive Event where
  /-- A token was read from the source. -/
  | lexed (token : String)
  /-- A statement begins at the token. -/
  | statement (token : String)
  | rotated (rotation : Rotation)
  /-- A program was parsed into so many nodes. -/
  | finished (nodes : Nat)
deriving DecidableEq

namespace Event

def level : Event → String
  | lexed _ | statement _ => "TRACE"
  | rotated _ | finished _ => "DEBUG"

def message : Event → String
  | lexed _ => "lexed token"
  | statement _ => "parsing statement"
  | rotated _ => "rotating operator below looser left operand"
  | finished _ => "parsed program"

def fields : Event → List (String × Value)
  | lexed token | statement token => [("token", .text token)]
  | rotated r => [("outer", .text r.outer), ("inner", .text r.inner)]
  | finished nodes => [("nodes", .number nodes)]

end Event

structure Cursor where
  scanner : Scanner
  current : Token
  /-- The tokens read ahead of the current one, the next one first. -/
  pending : List Token
  arena : Arena
  /-- What happened so far, the last event first. -/
  journal : List Event

namespace Cursor

/-- A result, or the error in place of it, and the cursor after it. -/
abbrev Outcome (α : Type) := Except Error α × Cursor

def note (c : Cursor) (e : Event) : Cursor := { c with journal := e :: c.journal }

def point (c : Cursor) : Point := c.current.span.start

/-- The error of a fault at a place in the source. -/
def errorAt (c : Cursor) (p : Point) (fault : Fault) : Error := ⟨fault, p, c.scanner.file⟩

/-- The error of a fault at the current token. -/
def error (c : Cursor) (fault : Fault) : Error := c.errorAt c.point fault

/-- Reads a token from the source. -/
def pull (c : Cursor) : Outcome Token :=
  match c.scanner.next with
  | (.ok t, scanner) => (.ok t, { c with scanner }.note (.lexed t.text))
  | (.error e, scanner) => (.error e, { c with scanner })

/-- Reads so many tokens ahead. Those read before an error stay pending. -/
def fill : Nat → Cursor → Outcome Unit
  | 0, c => (.ok (), c)
  | n + 1, c =>
    match c.pull with
    | (.ok t, c) => fill n { c with pending := c.pending ++ [t] }
    | (.error e, c) => (.error e, c)

/-- The token `depth` places after the current one. -/
def peek (c : Cursor) (depth : Nat) : Outcome Token :=
  if depth = 0 ∨ maxLookahead < depth then (.error (c.error (.lookaheadExceeded depth)), c)
  else
    match c.fill (depth - c.pending.length) with
    | (.ok (), c) => (.ok (c.pending.getD (depth - 1) c.current), c)
    | (.error e, c) => (.error e, c)

/-- Moves on to the next token and gives the one that was current. -/
def shift (c : Cursor) : Outcome Token :=
  match c.pending with
  | t :: pending => (.ok c.current, { c with current := t, pending })
  | [] =>
    match c.pull with
    | (.ok t, c) => (.ok c.current, { c with current := t })
    | (.error e, c) => (.error e, c)

def add (c : Cursor) (shape : Shape NodeId) (token : Option Token) : NodeId × Cursor :=
  let (id, arena) := c.arena.add shape token
  (id, { c with arena })

def regroup (c : Cursor) (id : NodeId) : NodeId × Cursor :=
  let (top, arena, rotations) := c.arena.regroup id
  (top, rotations.foldl (fun c r => c.note (.rotated r)) { c with arena })

def freeze (c : Cursor) (id : NodeId) : Cursor := { c with arena := c.arena.freeze id }

/-- A cursor on the first token of a source, or the error in place of that token. -/
def start (source : String) (file : Option String) : Except Error Cursor :=
  match (Scanner.ofText source file).next with
  | (.ok t, scanner) => .ok ⟨scanner, t, [], .empty, [.lexed t.text]⟩
  | (.error e, _) => .error e

end Cursor

end ScriptSyntax
