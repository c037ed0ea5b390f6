import ScriptSyntax.Proofs.Derivation.Collection
import ScriptSyntax.Proofs.Reading.Carried
import ScriptSyntax.Proofs.Scan.Lexeme

/-! Expressions and how they are printed. Operands are parenthesised where precedence asks for it,
and one space stands between two tokens. -/
namespace ScriptSyntax

/-- The node that a token of the kind is by itself. -/
def Kind.leaf? : Kind → Option (Shape Tree)
  | .var | .thisKw | .superKw | .printKw | .sizeKw | .hashKw => some .name
  | .intVal => some .intLiteral
  | .realVal => some .realLiteral
  | .strVal => some .stringLiteral
  | .trueKw | .falseKw => some .booleanLiteral
  | .nullKw => some .nullLiteral
  | _ => none

/-- The rank of an operator that joins operands. -/
def Kind.rank (op : Kind) : Nat := op.precedence.getD 0

/-- The operators that stand before their operand, and those that stand behind it. -/
def Fixity.operators : Fixity → List Kind
  | .leading => [.point, .subtract, .lNot, .bNot, .increment, .decrement]
  | .trailing => [.increment, .decrement, .totalRef, .deref, .round]

/-- An expression of a single token. A number has no sign, as what comes before it may be any
token. -/
structure Atom where
  lexeme : Lexeme
  shape : Shape Tree
  leaf : lexeme.kind.leaf? = some shape
  fits : ∀ previous, lexeme.Fits previous

inductive Expr where
  | atom (a : Atom)
  | binary (op : Kind) (joins : op.isBinaryOperator = true) (left right : Expr)
  | ternary (left center right : Expr)
  | unary (fixity : Fixity) (op : Kind) (known : op ∈ fixity.operators) (operand : Expr)
  | rounded (operand : Expr) (places : Atom)
  | index (target place : Expr)
  | slice (target start stop : Expr) (step : Option Expr)
  | get (target property : Expr) (optional : Bool)
  | call (target : Expr) (args : List Expr)
  | list (linked : Bool) (items : List Expr)
  | set (items : List Expr)

namespace Lexeme

/-- How a token of the kind is written. -/
def sign (k : Kind) : Lexeme := ⟨k.written, k.spelling⟩

/-- The characters of a token. A string stands between quotes, single ones if it holds a double
one. -/
def chars (l : Lexeme) : List Char :=
  if l.kind = .strVal then
    let mark := if '"' ∈ l.value.toList then '\x27' else '"'
    mark :: (l.value.toList ++ [mark])
  else l.value.toList

/-- The tokens with one space between two of them. -/
def spaced : List Lexeme → List Char
  | [] => []
  | [l] => l.chars
  | l :: m :: ls => l.chars ++ ' ' :: spaced (m :: ls)

/-- The tokens of an operand, in parentheses unless they may stand bare. -/
def enclose (bare : Bool) (ls : List Lexeme) : List Lexeme :=
  if bare then ls else sign .parOpen :: (ls ++ [sign .parClose])

end Lexeme

/-- Which of the parentheses that may be left out are left out. -/
structure Style where
  /-- Those around a target before a suffix that begins with a token of the kind. -/
  target : Expr → Kind → Bool
  /-- Those around a property. -/
  property : Expr → Bool

namespace Expr

open Lexeme

def isAtom : Expr → Bool
  | atom _ => true
  | _ => false

def isName : Expr → Bool
  | atom a => a.lexeme.kind = .var
  | _ => false

/-- Whether the expression needs no parentheses as the left operand of an operator. -/
def bareLeft (op : Kind) : Expr → Bool
  | atom _ => true
  | binary inner _ _ _ => inner.rank ≤ op.rank
  | _ => false

/-- Whether the expression needs no parentheses as the right operand of an operator. -/
def bareRight (op : Kind) : Expr → Bool
  | atom _ => true
  | binary inner _ _ _ => inner.rank < op.rank
  | _ => false

/-- Whether the expression needs no parentheses before a suffix that begins with a token of the
kind. A dereference would be taken for a conjunction before what may begin a term. -/
def bareTarget (next : Kind) : Expr → Bool
  | atom a => Grammar.namesValue a.lexeme.kind || a.lexeme.kind = .strVal
  | unary .trailing op _ _ => op ≠ .deref || !Grammar.beginsTerm next
  | binary .. | ternary .. | unary .leading .. => false
  | _ => true

end Expr

def Style.bare (style : Style) (next : Kind) (e : Expr) : Bool :=
  e.bareTarget next && style.target e next

def Expr.access (optional : Bool) : Kind := if optional then .optChain else .period

namespace Expr

open Grammar (listOpener)
open Lexeme

mutual

/-- The tokens that the expression is printed as. -/
def lexemes (style : Style) : Expr → List Lexeme
  | atom a => [a.lexeme]
  | binary op _ left right =>
    enclose (left.bareLeft op) (left.lexemes style) ++
      sign op :: enclose (right.bareRight op) (right.lexemes style)
  | ternary left center right =>
    enclose left.isAtom (left.lexemes style) ++
      sign .ternary :: (enclose center.isAtom (center.lexemes style) ++
        sign .colon :: enclose right.isAtom (right.lexemes style))
  | unary .leading op _ operand => sign op :: enclose operand.isAtom (operand.lexemes style)
  | unary .trailing op _ operand =>
    enclose (style.bare op.written operand) (operand.lexemes style) ++ [sign op]
  | rounded operand places =>
    enclose (style.bare .round operand) (operand.lexemes style) ++ [sign .round, places.lexeme]
  | index target place =>
    enclose (style.bare .arrOpen target) (target.lexemes style) ++
      sign .arrOpen :: (place.lexemes style ++ [sign .arrClose])
  | slice target start stop step =>
    enclose (style.bare .arrOpen target) (target.lexemes style) ++
      sign .arrOpen :: (start.lexemes style ++ sign .colon :: (stop.lexemes style ++
        (stepLexemes style step ++ [sign .arrClose])))
  | get target property optional =>
    enclose (style.bare (access optional) target) (target.lexemes style) ++
      sign (access optional) ::
        enclose (property.isName && style.property property) (property.lexemes style)
  | call target args =>
    enclose (style.bare .parOpen target) (target.lexemes style) ++
      sign .parOpen :: (itemLexemes style args ++ [sign .parClose])
  | list linked items => sign (listOpener linked) :: (itemLexemes style items ++ [sign .arrClose])
  | set items => sign .setOpen :: (itemLexemes style items ++ [sign .setClose])

/-- A colon and the step of a slice, if there is one. -/
def stepLexemes (style : Style) : Option Expr → List Lexeme
  | none => []
  | some step => sign .colon :: step.lexemes style

/-- Items with commas between them. -/
def itemLexemes (style : Style) : List Expr → List Lexeme
  | [] => []
  | e :: es => e.lexemes style ++ otherLexemes style es

/-- The items after the first one, each behind a comma. -/
def otherLexemes (style : Style) : List Expr → List Lexeme
  | [] => []
  | e :: es => sign .comma :: (e.lexemes style ++ otherLexemes style es)

end

/-- The expression as a statement. -/
def text (style : Style) (e : Expr) : String :=
  String.ofList (spaced (e.lexemes style ++ [sign .eol]))

/-- The tree is that of the expression, whatever the ids and places in it and whatever in it is
finished. -/
inductive Shows : Expr → Tree → Prop where
  | atom {a : Atom} {i : NodeId} {token : Token} {frozen : Bool} (own : token.lexeme = a.lexeme) :
      Shows (.atom a) (.node i a.shape (some token) frozen)
  | binary {op : Kind} {joins : op.isBinaryOperator = true} {left right : Expr} {i : NodeId}
      {token : Token} {frozen : Bool} {l r : Tree} (own : token.lexeme = ⟨op, op.spelling⟩)
      (first : Shows left l) (second : Shows right r) :
      Shows (.binary op joins left right) (.node i (.binaryOp l r) (some token) frozen)
  | ternary {left center right : Expr} {i : NodeId} {token : Token} {frozen : Bool} {l c r : Tree}
      (own : token.lexeme = ⟨.ternary, "?"⟩) (first : Shows left l) (second : Shows center c)
      (third : Shows right r) :
      Shows (.ternary left center right) (.node i (.ternaryOp l c r) (some token) frozen)
  | unary {fixity : Fixity} {op : Kind} {known : op ∈ fixity.operators} {operand : Expr}
      {i : NodeId} {token : Token} {frozen : Bool} {t : Tree}
      (own : token.lexeme = ⟨op, op.spelling⟩) (first : Shows operand t) :
      Shows (.unary fixity op known operand) (.node i (.unaryOp t fixity) (some token) frozen)
  | rounded {operand : Expr} {places : Atom} {i j : NodeId} {token digits : Token}
      {frozen frozen' : Bool} {t : Tree} (own : token.lexeme = ⟨.round, "`"⟩)
      (first : Shows operand t) (second : digits.lexeme = places.lexeme) :
      Shows (.rounded operand places)
        (.node i (.binaryOp t (.node j places.shape (some digits) frozen')) (some token) frozen)
  | index {target place : Expr} {i : NodeId} {token : Token} {frozen : Bool} {t p : Tree}
      (own : token.lexeme = ⟨.arrOpen, "["⟩) (first : Shows target t) (second : Shows place p) :
      Shows (.index target place) (.node i (.index t p) (some token) frozen)
  | slice {target start stop : Expr} {step : Option Expr} {i : NodeId} {token : Token}
      {frozen : Bool} {t a b : Tree} {s : Option Tree} (own : token.lexeme = ⟨.arrOpen, "["⟩)
      (first : Shows target t) (second : Shows start a) (third : Shows stop b)
      (fourth : List.Forall₂ Shows step.toList s.toList) :
      Shows (.slice target start stop step) (.node i (.slice t a b s) (some token) frozen)
  | get {target property : Expr} {optional : Bool} {i : NodeId} {token : Token} {frozen : Bool}
      {t p : Tree} (own : token.lexeme = ⟨access optional, (access optional).spelling⟩)
      (first : Shows target t) (second : Shows property p) :
      Shows (.get target property optional) (.node i (.get t p optional) (some token) frozen)
  | call {target : Expr} {args : List Expr} {i : NodeId} {token : Token} {frozen : Bool} {t : Tree}
      {ts : List Tree} (own : token.lexeme = ⟨.parOpen, "("⟩) (first : Shows target t)
      (others : List.Forall₂ Shows args ts) :
      Shows (.call target args) (.node i (.call t ts) (some token) frozen)
  | list {linked : Bool} {items : List Expr} {i : NodeId} {token : Token} {frozen : Bool}
      {ts : List Tree} (own : token.lexeme = ⟨listOpener linked, (listOpener linked).spelling⟩)
      (inner : List.Forall₂ Shows items ts) :
      Shows (.list linked items)
        (.node i (if linked then .linkedList ts else .arrayList ts) (some token) frozen)
  | set {items : List Expr} {i : NodeId} {token : Token} {frozen : Bool} {ts : List Tree}
      (own : token.lexeme = ⟨.setOpen, "\x7b<"⟩) (inner : List.Forall₂ Shows items ts) :
      Shows (.set items) (.node i (.set ts) (some token) frozen)

/-- The expressions that the expression is made of. -/
def parts : Expr → List Expr
  | atom _ => []
  | binary _ _ left right => [left, right]
  | ternary left center right => [left, center, right]
  | unary _ _ _ operand | rounded operand _ => [operand]
  | index target place => [target, place]
  | slice target start stop step => target :: start :: stop :: step.toList
  | get target property _ => [target, property]
  | call target args => target :: args
  | list _ items | set items => items

theorem sizeOf_part {e p : Expr} (part : p ∈ e.parts) : sizeOf p < sizeOf e := by
  have inList (l : List Expr) (h : p ∈ l) : sizeOf p < sizeOf l := List.sizeOf_lt_of_mem h
  have inOption (o : Option Expr) (h : o = some p) : sizeOf p < sizeOf o := by subst h; simp
  cases e <;> simp [parts] at part ⊢ <;> grind

/-- Induction from the parts to the expression. -/
@[elab_as_elim] theorem ofParts {P : Expr → Prop}
    (step : ∀ e : Expr, (∀ p ∈ e.parts, P p) → P e) (e : Expr) : P e :=
  step e fun p _ => ofParts step p
termination_by sizeOf e
decreasing_by exact sizeOf_part ‹_›

end Expr
end ScriptSyntax
