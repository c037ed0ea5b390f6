import ScriptSyntax.Grammar.Object

/-! Lists, ranges, sets, maps and graphs. -/
namespace ScriptSyntax.Grammar

open Parse

/-- The value that a shorthand stands for. -/
def emptyShape : Container → Shape NodeId
  | .arrayList => .arrayList []
  | .linkedList => .linkedList []
  | .map => .valueMap []
  | .set => .set []
  | .undirectedGraph => .undirectedGraph [] []
  | .directedGraph => .directedGraph [] []

def listShape (linked : Bool) (items : List NodeId) : Shape NodeId :=
  if linked then .linkedList items else .arrayList items

def rangeShape (linked : Bool) (start stop : NodeId) (step : Option NodeId) : Shape NodeId :=
  if linked then .linkedListRange start stop step else .arrayListRange start stop step

/-- A value after a colon, where there is a colon. The value runs up to a token of kind `close`. -/
def step? (close : Kind) : Parse (Option NodeId) := do
  if ← accept .colon then return some (← call (.expression [close] false)) else return none

/-- A list, as in `[a, b]`, or a range, as in `[a => b : c]`. The linked kind begins with `-[`. -/
def list (linked : Bool) : Parse NodeId := do
  let token ← shift
  if ← accept .arrClose then add (listShape linked []) (some token)
  else
    let first ← call (.expression [.comma, .direct, .arrClose] false)
    if ← accept .direct then
      let stop ← call (.expression [.colon, .arrClose] false)
      let step ← step? .arrClose
      let _ ← expect .arrClose
      add (rangeShape linked first stop step) (some token)
    else
      let others ←
        if ← accept .comma then arguments .arrClose else pure []
      let _ ← expect .arrClose
      add (listShape linked (first :: others)) (some token)

/-- A set, as in `{< a, b <}`. -/
def set : Parse NodeId := do
  let token ← shift
  let items ← arguments .setClose
  let _ ← expect .setClose
  add (.set items) (some token)

/-- Whether a name and a colon come next. -/
def isAtNamedKey : Parse Bool := do
  if ← isAt .var then return (← peek 1) = .colon else return false

def key (named : Bool) : Parse NodeId := do
  if named then
    if ← isAtNamedKey then add .name (some (← shift)) else fail .here .invalidMapKey
  else call (.expression [.colon] false)

def entries (named : Bool) : Parse (List (NodeId × NodeId)) := do
  if ← isAt .scopeClose then return []
  else
    let key ← key named
    let _ ← expect .colon
    let value ← call (.expression [.comma, .scopeClose] false)
    if ← accept .comma then return (key, value) :: (← call (.entries named))
    else return [(key, value)]

/-- A map, as in `{a: 1, b: 2}`. If its first key is a name, all its keys are. -/
def map : Parse NodeId := do
  let token ← expect .scopeOpen
  let named ← isAtNamedKey
  let entries ← call (.entries named)
  let _ ← expect .scopeClose
  add (if named then .objectMap entries else .valueMap entries) (some token)

/-- An edge, as in `a <-> b`. In a directed graph it may also point one way, as in `a -> b`. -/
def edge (directed : Bool) (stops : List Kind) : Parse NodeId := do
  let left ← call (.expression [.dirEdge, .dir2Edge] false)
  let both ← isAt .dir2Edge
  let token ← if directed then expectAny [.dirEdge, .dir2Edge] else expect .dir2Edge
  let right ← call (.expression (.comma :: stops) false)
  let shape : Shape NodeId := if directed then .directedEdge left right both else .edge left right
  add shape (some token)

/-- A graph, as in `*- a, b; a <-> b -*` or `*-> a, b; a -> b <-*`. The edges, with the `;` before
them, may be left out. -/
def graph (directed : Bool) : Parse NodeId := do
  let token ← shift
  let close : Kind := if directed then .dirClose else .undirClose
  let nodes ← call (.items [.eol, close] (.expression false))
  let edges ←
    if ← accept .eol then call (.items [close] (.edge directed)) else pure []
  let _ ← expect close
  let shape : Shape NodeId :=
    if directed then .directedGraph nodes edges else .undirectedGraph nodes edges
  add shape (some token)

def collection : Parse NodeId := do
  let kind ← current
  match Container.ofShorthand? kind, Container.ofOpener? kind with
  | some container, _ => add (emptyShape container) (some (← shift))
  | none, some .arrayList => list false
  | none, some .linkedList => list true
  | none, some .set => set
  | none, some .map => map
  | none, some .undirectedGraph => graph false
  | none, some .directedGraph => graph true
  | none, none => unexpected

/-- One item of a list that ends before a token of one of the kinds. -/
def item (stops : List Kind) : Item → Parse NodeId
  | .expression assignable => call (.expression (.comma :: stops) assignable)
  | .name => name
  | .parameter => parameter
  | .edge directed => edge directed stops

def items (stops : List Kind) (item : Item) : Parse (List NodeId) := do
  if ← isAtAny stops then return []
  else
    let first ← Grammar.item stops item
    if ← accept .comma then return first :: (← call (.items stops item)) else return [first]

end ScriptSyntax.Grammar
