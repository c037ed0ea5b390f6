import ScriptSyntax.Token.Kind

/-! Tokens: a kind, the text it carries and where it stands. Lines and columns count from one, a
column counts characters, and only a line feed ends a line. -/
namespace ScriptSyntax

structure Point where
  line : Nat
  column : Nat
deriving DecidableEq, Inhabited

namespace Point

/-- Where a text begins. -/
def start : Point := ⟨1, 1⟩

/-- The place of what belongs to no text. -/
def null : Point := ⟨0, 0⟩

/-- The place right after `c` when `c` stands at `p`. -/
def after (p : Point) (c : Char) : Point :=
  if c = '\n' then ⟨p.line + 1, 1⟩ else ⟨p.line, p.column + 1⟩

/-- The place right after `cs` when `cs` begins at `p`. -/
def advance (p : Point) (cs : List Char) : Point :=
  cs.foldl after p

@[simp] theorem advance_nil (p : Point) : p.advance [] = p := rfl

@[simp] theorem advance_cons (p : Point) (c : Char) (cs : List Char) :
    p.advance (c :: cs) = (p.after c).advance cs := rfl

@[simp] theorem advance_append (p : Point) (as bs : List Char) :
    p.advance (as ++ bs) = (p.advance as).advance bs := by
  simp [advance]

end Point

/-- A stretch of text; `stop` is the place right after its last character. -/
structure Span where
  start : Point
  stop : Point
deriving DecidableEq, Inhabited

def Span.null : Span := ⟨.null, .null⟩

/-- A place in a named file. -/
structure Position where
  point : Point
  file : String
deriving DecidableEq, Inhabited

namespace Position

def null : Position := ⟨.null, "<null>"⟩

/-- The written form `file:line:column`. -/
def text (p : Position) : String :=
  p.file ++ ":" ++ toString p.point.line ++ ":" ++ toString p.point.column

end Position

structure Token where
  kind : Kind
  value : String
  span : Span
deriving DecidableEq, Inhabited

namespace Token

/-- A token that carries the spelling of its kind. -/
def canonical (kind : Kind) (span : Span) : Token :=
  ⟨kind, kind.spelling, span⟩

/-- The written form of a token: its kind, and its value where that is not the kind's spelling. -/
def text (t : Token) : String :=
  if t.value = t.kind.spelling then t.kind.name else t.kind.name ++ "(" ++ t.value ++ ")"

/-- The token without its place. Two tokens mean the same when they agree up to their places. -/
def unplaced (t : Token) : Token :=
  { t with span := .null }

end Token

/-- What trees, errors and events are written out as: named fields over plain values. -/
inductive Value where
  | null
  | flag (value : Bool)
  | number (value : Nat)
  | text (value : String)
  | list (items : List Value)
  | record (fields : List (String × Value))
deriving Inhabited

end ScriptSyntax
