import ScriptSyntax.Proofs.Forest.Tree

/-! The forms of nodes: what a node of each shape may hold and which tokens it may come from. -/
namespace ScriptSyntax.Tree

def kind? (t : Tree) : Option Kind := t.token.map Token.kind

/-- A variable: a name that comes from an identifier. -/
def IsVariable (t : Tree) : Prop := t.shape = .name ∧ t.kind? = some .var

/-- A variable or a call of one. -/
def IsInstance (t : Tree) : Prop :=
  t.IsVariable ∨ ∃ target args, t.shape = .call target args ∧ target.IsVariable

def IsTypedDeclaration (t : Tree) : Prop :=
  ∃ modifiers name types, t.shape = .declare modifiers name types ∧ types ≠ []

/-- An assignment, or a declaration with types. -/
def IsMember (t : Tree) : Prop :=
  (∃ target value cast, t.shape = .assignment target value cast) ∨ t.IsTypedDeclaration

def IsMemberBlock (t : Tree) : Prop :=
  ∃ members, t.shape = .block members ∧ ∀ m ∈ members, m.IsMember

/-- An edge of an undirected graph. -/
def IsEdge (t : Tree) : Prop :=
  ∃ left right, t.shape = .edge left right ∧ t.kind? = some .dir2Edge

/-- An edge of a directed graph, which points one way or both ways as its token says. -/
def IsDirectedEdge (t : Tree) : Prop :=
  ∃ left right both, t.shape = .directedEdge left right both ∧
    (both = true ∧ t.kind? = some .dir2Edge ∨ both = false ∧ t.kind? = some .dirEdge)

/-- Whether the node comes from the opener of the container, or from its shorthand and is empty. -/
def Opens (t : Tree) (container : Container) : Prop :=
  t.kind? = some container.opener ∨ t.kind? = some container.shorthand ∧ t.children = []

/-- Whether the node has the form that its shape asks for. -/
def WellFormed (t : Tree) : Prop :=
  match t.shape with
  | .classDef _ _ body | .structDef _ _ body | .interfaceDef _ body => body.IsMemberBlock
  | .enumDef _ _ instances body =>
    instances ≠ [] ∧ (∀ i ∈ instances, i.IsInstance) ∧ body.IsMemberBlock
  | .conditional branches _ => branches ≠ []
  | .caseArm value _ => value = none ↔ t.kind? = some .defaultKw
  | .catchArm declaration _ => declaration.IsTypedDeclaration
  | .assignment _ _ cast => cast = true ↔ t.kind? = some .castAssign
  | .get _ _ optional => optional = true ↔ t.kind? = some .optChain
  | .arrayList _ | .arrayListRange .. => t.Opens .arrayList
  | .linkedList _ | .linkedListRange .. => t.Opens .linkedList
  | .set _ => t.Opens .set
  | .valueMap _ => t.Opens .map
  | .objectMap entries => t.Opens .map ∧ entries ≠ [] ∧ ∀ e ∈ entries, e.1.IsVariable
  | .undirectedGraph _ edges => t.Opens .undirectedGraph ∧ ∀ e ∈ edges, e.IsEdge
  | .directedGraph _ edges => t.Opens .directedGraph ∧ ∀ e ∈ edges, e.IsDirectedEdge
  | _ => True

end ScriptSyntax.Tree
