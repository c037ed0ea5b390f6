import ScriptSyntax.Fault
import ScriptSyntax.Grammar.Rule

/-! Parses as trees of actions. A parse sees the kinds of the tokens, takes them one by one, adds
nodes to an arena and calls rules. What the actions do is left to the cursor that runs it. -/
namespace ScriptSyntax

/-- What may be asked of a finished node. -/
structure Profile where
  tag : String
  /-- Whether the node is a name that is no finished expression. -/
  openName : Bool
  /-- Whether the node may stand in the body of a class. -/
  isMember : Bool
deriving DecidableEq

/-- Only assignments and declarations with types are members of a class. -/
def Shape.isMember {α : Type} : Shape α → Bool
  | assignment .. => true
  | declare _ _ types => !types.isEmpty
  | _ => false

def Node.profile (n : Node) : Profile :=
  ⟨n.shape.tag, n.shape = .name && !n.frozen, n.shape.isMember⟩

inductive Action where
  /-- The kind of the current token. -/
  | current
  /-- The kind of the token `depth` places after the current one. -/
  | peek (depth : Nat)
  /-- Takes the current token and moves on to the next. -/
  | shift
  | add (shape : Shape NodeId) (token : Option Token)
  | inspect (id : NodeId)
  /-- Regroups a chain of operators and freezes what takes its place. -/
  | settle (id : NodeId)
  | freeze (id : NodeId)
  /-- Notes that a statement begins at the current token. -/
  | announce
  | call {y : Yield} (rule : Rule y)

@[reducible]
def Action.Answer : Action → Type
  | current | peek _ => Kind
  | shift => Token
  | add .. | settle _ => NodeId
  | inspect _ => Profile
  | freeze _ | announce => Unit
  | @call y _ => y.Value

/-- The token that a fault is found at: the current one, or the one that was current when the
running rule was called. -/
inductive Blame where
  | here
  | start
deriving DecidableEq

/-- A parse ends with a value or a fault, which may quote the current token. -/
inductive Parse (α : Type) where
  | done (value : α)
  | fail (blame : Blame) (fault : String → Fault)
  | step (action : Action) (next : action.Answer → Parse α)

namespace Parse

variable {α β : Type}

def bind : Parse α → (α → Parse β) → Parse β
  | done a, f => f a
  | fail blame fault, _ => fail blame fault
  | step action next, f => step action fun answer => (next answer).bind f

instance : Monad Parse where
  pure := done
  bind := bind

theorem bind_done (p : Parse α) : p.bind done = p := by
  induction p with
  | done a => rfl
  | fail blame fault => rfl
  | step action next ih => simp only [bind, ih]

theorem bind_assoc {γ : Type} (p : Parse α) (f : α → Parse β) (g : β → Parse γ) :
    (p.bind f).bind g = p.bind fun a => (f a).bind g := by
  induction p with
  | done a => rfl
  | fail blame fault => rfl
  | step action next ih => simp only [bind, ih]

instance : LawfulMonad Parse :=
  LawfulMonad.mk' Parse bind_done (fun _ _ => rfl) bind_assoc

def perform (action : Action) : Parse action.Answer := step action done

def current : Parse Kind := perform .current

def peek (depth : Nat) : Parse Kind := perform (.peek depth)

def shift : Parse Token := perform .shift

def add (shape : Shape NodeId) (token : Option Token) : Parse NodeId :=
  perform (.add shape token)

def inspect (id : NodeId) : Parse Profile := perform (.inspect id)

def settle (id : NodeId) : Parse NodeId := perform (.settle id)

def freeze (id : NodeId) : Parse Unit := perform (.freeze id)

def announce : Parse Unit := perform .announce

def call {y : Yield} (rule : Rule y) : Parse y.Value := perform (.call rule)

def isAt (k : Kind) : Parse Bool := do
  return (← current) = k

def isAtAny (ks : List Kind) : Parse Bool := do
  return ks.contains (← current)

/-- The fault of a token that nothing can be made of. -/
def unexpected : Parse α := fail .here .unexpectedToken

def unexpectedBecause (message : String) : Parse α :=
  fail .here fun token => .unexpectedTokenDetailed token message

/-- Takes a token of the kind, which has to be the current one. -/
def expect (k : Kind) : Parse Token := do
  if ← isAt k then shift else fail .here (.expectedToken k.name)

/-- Takes a token of one of the kinds. -/
def expectAny (ks : List Kind) : Parse Token := do
  if ← isAtAny ks then shift
  else fail .here (.expectedToken (" | ".intercalate (ks.map Kind.name)))

/-- Takes the current token if it is of the kind. -/
def accept? (k : Kind) : Parse (Option Token) := do
  if ← isAt k then return some (← shift) else return none

/-- Takes the current token if it is of the kind, and tells whether it was. -/
def accept (k : Kind) : Parse Bool := do
  return (← accept? k).isSome

end Parse
end ScriptSyntax
