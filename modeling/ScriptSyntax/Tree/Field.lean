import ScriptSyntax.Tree.Shape

/-! The external form of a node: a record of its tag, its token and its named fields, with the
external forms of the children in the places of the slots. -/
namespace ScriptSyntax

/-- What a named field of a shape holds. -/
inductive Field (α : Type) where
  | one (a : α)
  | optional (a : Option α)
  | many (as : List α)
  | pairs (entries : List (α × α))
  | flag (value : Bool)
  | text (value : String)
  | tokens (tokens : List Token)
  | types (types : List TypeTerm)

namespace Field

variable {α : Type}

def value (child : α → Value) : Field α → Value
  | one a => child a
  | optional none => .null
  | optional (some a) => child a
  | many as => .list (as.map child)
  | pairs entries =>
    .list (entries.map fun p => .record [("key", child p.1), ("value", child p.2)])
  | flag b => .flag b
  | text s => .text s
  | tokens ts => .list (ts.map fun t => .text t.text)
  | types ts => .list (TypeTerm.recordAll ts)

end Field

namespace Shape

variable {α : Type}

/-- The named fields of a shape. -/
def fields : Shape α → List (String × Field α)
  | noOp | pass | continueStep | breakStep | name | intLiteral | realLiteral | stringLiteral
  | booleanLiteral | nullLiteral => []
  | block statements => [("statements", .many statements)]
  | assignment target value cast =>
    [("var", .one target), ("value", .one value), ("cast", .flag cast)]
  | declare modifiers declared types =>
    [("modifiers", .tokens modifiers), ("var", .one declared), ("types", .types types)]
  | returnStep value | deferStep value => [("expression", .one value)]
  | unaryOp operand fixity => [("operand", .one operand), ("meta", .text fixity.name)]
  | binaryOp left right | edge left right => [("left", .one left), ("right", .one right)]
  | ternaryOp left center right =>
    [("left", .one left), ("center", .one center), ("right", .one right)]
  | index target place => [("target", .one target), ("index", .one place)]
  | slice target start stop step =>
    [("target", .one target), ("start", .one start), ("stop", .one stop), ("step", .optional step)]
  | get target property optional =>
    [("target", .one target), ("property", .one property), ("optChain", .flag optional)]
  | call target args => [("target", .one target), ("args", .many args)]
  | func params body => [("params", .many params), ("body", .one body)]
  | classDef supers interfaces body | structDef supers interfaces body =>
    [("supers", .many supers), ("interfaces", .many interfaces), ("body", .one body)]
  | interfaceDef supers body => [("supers", .many supers), ("body", .one body)]
  | enumDef supers interfaces instances body =>
    [("supers", .many supers), ("interfaces", .many interfaces), ("instances", .many instances),
      ("body", .one body)]
  | conditional branches otherwise =>
    [("blocks", .many branches), ("elseBlock", .optional otherwise)]
  | branch condition body => [("condition", .one condition), ("body", .one body)]
  | loop init conditions steps body otherwise =>
    [("init", .many init), ("conditions", .many conditions), ("steps", .many steps),
      ("body", .one body), ("elseBlock", .optional otherwise)]
  | switch subject cases otherwise =>
    [("subject", .one subject), ("cases", .many cases), ("elseBlock", .optional otherwise)]
  | caseArm value body => [("value", .optional value), ("body", .one body)]
  | guarded body catches otherwise =>
    [("body", .one body), ("catches", .many catches), ("elseBlock", .optional otherwise)]
  | catchArm declaration body => [("declaration", .one declaration), ("body", .one body)]
  | arrayList items | linkedList items | set items => [("items", .many items)]
  | objectMap entries | valueMap entries => [("entries", .pairs entries)]
  | undirectedGraph nodes edges | directedGraph nodes edges =>
    [("nodes", .many nodes), ("edges", .many edges)]
  | directedEdge left right both =>
    [("left", .one left), ("right", .one right), ("doubleEdge", .flag both)]
  | arrayListRange start stop step | linkedListRange start stop step =>
    [("start", .one start), ("stop", .one stop), ("step", .optional step)]

def record (child : α → Value) (token : Option Token) (s : Shape α) : Value :=
  .record (("type", .text s.tag) :: ("token", token.elim .null fun t => .text t.text) ::
    s.fields.map fun f => (f.1, f.2.value child))

end Shape
end ScriptSyntax
