import ScriptSyntax.Token.Basic

/-! The types of a declaration. A container type carries the types of its elements, none when it is
written in its shorthand. -/
namespace ScriptSyntax

/-- The built-in containers, which are written both as values and as types. -/
inductive Container where
  | arrayList
  | linkedList
  | map
  | set
  | undirectedGraph
  | directedGraph
deriving DecidableEq

namespace Container

def name : Container → String
  | arrayList => "ARR"
  | linkedList => "L_ARR"
  | map => "MAP"
  | set => "SET"
  | undirectedGraph => "UNDIR"
  | directedGraph => "DIR"

def opener : Container → Kind
  | arrayList => .arrOpen
  | linkedList => .lArrOpen
  | map => .scopeOpen
  | set => .setOpen
  | undirectedGraph => .undirOpen
  | directedGraph => .dirOpen

/-- The kind that stands for the whole container, without elements. -/
def shorthand : Container → Kind
  | arrayList => .arrType
  | linkedList => .lArrType
  | map => .mapType
  | set => .setType
  | undirectedGraph => .undirType
  | directedGraph => .dirType

def closer : Container → Kind
  | arrayList | linkedList => .arrClose
  | map => .scopeClose
  | set => .setClose
  | undirectedGraph => .undirClose
  | directedGraph => .dirClose

def all : List Container :=
  [arrayList, linkedList, map, set, undirectedGraph, directedGraph]

def ofOpener? (k : Kind) : Option Container := all.find? (·.opener = k)

def ofShorthand? (k : Kind) : Option Container := all.find? (·.shorthand = k)

end Container

inductive TypeTerm where
  | named (token : Token) (pointer : Bool)
  | container (token : Token) (pointer : Bool) (container : Container) (elements : List TypeTerm)
deriving Inhabited

namespace TypeTerm

mutual

def decEq : (s t : TypeTerm) → Decidable (s = t)
  | named a p, named b q =>
    if h : a = b ∧ p = q then isTrue (by rw [h.1, h.2])
    else isFalse fun e => h (by injection e; exact ⟨‹_›, ‹_›⟩)
  | container a p c xs, container b q d ys =>
    match decEqAll xs ys with
    | isTrue hs =>
      if h : a = b ∧ p = q ∧ c = d then isTrue (by rw [h.1, h.2.1, h.2.2, hs])
      else isFalse fun e => h (by injection e; exact ⟨‹_›, ‹_›, ‹_›⟩)
    | isFalse hs => isFalse fun e => hs (by injection e)
  | named .., container .. => isFalse nofun
  | container .., named .. => isFalse nofun

def decEqAll : (ss ts : List TypeTerm) → Decidable (ss = ts)
  | [], [] => isTrue rfl
  | s :: ss, t :: ts =>
    match decEq s t, decEqAll ss ts with
    | isTrue h, isTrue hs => isTrue (by rw [h, hs])
    | isFalse h, _ => isFalse fun e => h (List.cons.inj e).1
    | _, isFalse hs => isFalse fun e => hs (List.cons.inj e).2
  | [], _ :: _ => isFalse nofun
  | _ :: _, [] => isFalse nofun

end

instance : DecidableEq TypeTerm := decEq

mutual

/-- The type with its tokens stripped of their places. -/
def unplaced : TypeTerm → TypeTerm
  | named token pointer => named token.unplaced pointer
  | container token pointer c elements =>
    container token.unplaced pointer c (unplacedAll elements)

def unplacedAll : List TypeTerm → List TypeTerm
  | [] => []
  | t :: ts => unplaced t :: unplacedAll ts

end

mutual

def record : TypeTerm → Value
  | named token pointer =>
    .record [("type", .text "Type"), ("token", .text token.text), ("pointer", .flag pointer)]
  | container token pointer c elements =>
    .record [("type", .text "ContainerType"), ("token", .text token.text),
      ("pointer", .flag pointer), ("container", .text c.name),
      ("types", .list (recordAll elements))]

def recordAll : List TypeTerm → List Value
  | [] => []
  | t :: ts => record t :: recordAll ts

end

end TypeTerm

end ScriptSyntax
