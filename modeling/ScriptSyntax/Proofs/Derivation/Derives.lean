import ScriptSyntax.Grammar.Statement
import ScriptSyntax.Proofs.Derivation.Phrase
import ScriptSyntax.Proofs.Grouping.Reference

/-! The grammar as a relation: which tokens make up a phrase and which trees they yield. The token
after a phrase belongs to the relation because it tells where an expression ends. The ids of nodes
are left open. -/
namespace ScriptSyntax

open Grammar (assigners atomShape? emptyShape namesType)

/-- Whether an expression that runs up to `stops` ends before a token of the kind. -/
def endsExpression (stops : List Kind) (k : Kind) : Bool :=
  stops.contains k || !(assigners.contains k || k = .ternary || k.isBinaryOperator)

/-- Whether a token of the kind stands between two operands in an expression up to `stops`. -/
def joinsOperands (stops : List Kind) (k : Kind) : Bool :=
  k.isBinaryOperator && !stops.contains k && !assigners.contains k

namespace Shape

variable {α : Type}

def ofList (opener : Kind) (items : List α) : Shape α :=
  if opener = .lArrOpen then .linkedList items else .arrayList items

def ofRange (opener : Kind) (start stop : α) (step : Option α) : Shape α :=
  if opener = .lArrOpen then .linkedListRange start stop step else .arrayListRange start stop step

def ofEntries (named : Bool) (entries : List (α × α)) : Shape α :=
  if named then .objectMap entries else .valueMap entries

def ofGraph (directed : Bool) (nodes edges : List α) : Shape α :=
  if directed then .directedGraph nodes edges else .undirectedGraph nodes edges

def ofEdge (directed : Bool) (mark : Kind) (left right : α) : Shape α :=
  if directed then .directedEdge left right (mark = .dir2Edge) else .edge left right

def ofRecord (keyword : Kind) (supers interfaces : List α) (body : α) : Shape α :=
  if keyword = .classKw then .classDef supers interfaces body
  else .structDef supers interfaces body

def ofSections (sections : List (List α)) (body : α) (otherwise : Option α) : Shape α :=
  match sections with
  | [conditions] => .loop [] conditions [] body otherwise
  | init :: conditions :: steps => .loop init conditions (steps.headD []) body otherwise
  | [] => .loop [] [] [] body otherwise

end Shape

/-- Kinds that are a statement by themselves. -/
def wordShapes : List (Kind × Shape Tree) :=
  [(.passKw, .pass), (.continueKw, .continueStep), (.breakKw, .breakStep)]

def leadingOperators : List Kind := [.subtract, .lNot, .bNot, .increment, .decrement]

def trailingOperators : List Kind := [.increment, .decrement, .totalRef, .round]

/-- The name that a token stands for. -/
def Tree.ofName (id : NodeId) (name : Token) : Tree := .node id .name (some name) false

/-- What is assigned a value. -/
def Tree.ofAssignment (id : NodeId) (target value : Tree) (mark : Token) : Tree :=
  .node id (.assignment target value (mark.kind = .castAssign)) (some mark) false

open ScriptSyntax.Tree (ofName ofAssignment)

inductive Derives : {y : Yield} → Phrase y → List Token → Token → y.Result → Prop where
  | plain : Derives .plain ts semi t → semi.kind = .eol →
      Derives .statement (ts ++ [semi]) next t
  | conditional : Derives .branches (keyword :: ts) next (bs, o) → keyword.kind = .ifKw →
      Derives .statement (keyword :: ts) next (.node i (.conditional bs o) (some keyword) false)
  | loop : keyword.kind = .loopKw → opener.kind = .parOpen →
      Derives .sections ts closer ss → ss.length ≤ 3 → closer.kind = .parClose →
      arrow.kind = .direct → Derives .body us m b → Derives .otherwise os next o.toList →
      Derives .statement (keyword :: opener :: ts ++ closer :: arrow :: us ++ os) next
        (.node i (.ofSections ss b o) (some keyword) false)
  | switch : keyword.kind = .switchKw → Derives .group ts m c → arrow.kind = .direct →
      opener.kind = .scopeOpen → Derives .cases us closer cs → closer.kind = .scopeClose →
      Derives .otherwise os next o.toList →
      Derives .statement (keyword :: ts ++ arrow :: opener :: us ++ closer :: os) next
        (.node i (.switch c cs o) (some keyword) false)
  | guarded : keyword.kind = .tryKw → Derives .braced ts m b → Derives .catches us n cs →
      Derives .otherwise os next o.toList →
      Derives .statement (keyword :: ts ++ us ++ os) next
        (.node i (.guarded b cs o) (some keyword) false)
  | returned : keyword.kind = .returnKw → Derives (.expression [.eol] false) ts next t →
      Derives .plain (keyword :: ts) next (.node i (.returnStep t) (some keyword) false)
  | deferred : keyword.kind = .deferKw → Derives (.expression [.eol] false) ts next t →
      Derives .plain (keyword :: ts) next (.node i (.deferStep t) (some keyword) false)
  | word : (keyword.kind, shape) ∈ wordShapes →
      Derives .plain [keyword] next (.node i shape (some keyword) false)
  | nothing : next.kind = .eol → Derives .plain [] next (.node i .noOp none false)
  | bindingStatement : Derives (.binding [.eol]) ts next t → Derives .plain ts next t
  | expressionStatement : Derives (.expression [.eol] true) ts next t → Derives .plain ts next t
  | noStatements : stops.contains next.kind = true → Derives (.statements stops) [] next []
  | moreStatements : Derives .statement ts m b → Derives (.statements stops) us next bs →
      Derives (.statements stops) (ts ++ us) next (b :: bs)
  | block : Derives (.statements stops) ts next bs →
      Derives (.block stops) ts next (.node i (.block bs) none false)
  | emptyBraces : token.kind = .mapType →
      Derives .braced [token] next (.node i (.block []) none false)
  | braces : opener.kind = .scopeOpen → Derives (.block [.scopeClose]) ts closer b →
      closer.kind = .scopeClose → Derives .braced (opener :: ts ++ [closer]) next b
  | bracedBody : Derives .braced ts next b → Derives .body ts next b
  | singleBody : Derives .statement ts next t →
      Derives .body ts next (.node i (.block [t]) none false)
  | noOtherwise : Derives .otherwise [] next []
  | otherwise : keyword.kind = .elseKw → arrow.kind = .direct → Derives .body ts next b →
      Derives .otherwise (keyword :: arrow :: ts) next [b]
  | branch : keyword.kind = .ifKw → Derives .group ts m c → arrow.kind = .direct →
      Derives .body us next b →
      Derives .branch (keyword :: ts ++ arrow :: us) next
        (.node i (.branch c b) (some keyword) false)
  | lastBranch : Derives .branch ts next b → Derives .branches ts next ([b], none)
  | elseBranch : Derives .branch ts other b → other.kind = .elseKw → arrow.kind = .direct →
      Derives .body us next e → Derives .branches (ts ++ other :: arrow :: us) next ([b], some e)
  | moreBranches : Derives .branch ts other b → other.kind = .elseKw →
      Derives .branches us next (bs, o) → Derives .branches (ts ++ other :: us) next (b :: bs, o)
  | lastSection : Derives (.items [.colon, .parClose] (.expression true)) ts next rs →
      Derives .sections ts next [rs]
  | moreSections : Derives (.items [.colon, .parClose] (.expression true)) ts colon rs →
      colon.kind = .colon → Derives .sections us next ss →
      Derives .sections (ts ++ colon :: us) next (rs :: ss)
  | noCases : Derives .cases [] next []
  | valueCase : keyword.kind = .caseKw → Derives (.expression [.colon] false) ts colon v →
      colon.kind = .colon → Derives (.block [.caseKw, .defaultKw, .scopeClose]) us m b →
      Derives .cases rest next cs →
      Derives .cases (keyword :: ts ++ colon :: us ++ rest) next
        (.node i (.caseArm (some v) b) (some keyword) false :: cs)
  | defaultCase : keyword.kind = .defaultKw → colon.kind = .colon →
      Derives (.block [.caseKw, .defaultKw, .scopeClose]) us m b → Derives .cases rest next cs →
      Derives .cases (keyword :: colon :: us ++ rest) next
        (.node i (.caseArm none b) (some keyword) false :: cs)
  | noCatches : Derives .catches [] next []
  | moreCatches : keyword.kind = .catchKw → Derives (.declaration true) ts m d →
      Derives .braced us n b → Derives .catches rest next cs →
      Derives .catches (keyword :: ts ++ us ++ rest) next
        (.node i (.catchArm d b) (some keyword) false :: cs)
  | modifiers : (∀ m ∈ ms, m.kind.isModifier = true) → Derives .modifiers ms next ms
  | typed : (∀ m ∈ mark, m.kind = .atSign) → Derives .modifiers ms m ms → name.kind = .var →
      Derives .typeList ts next types →
      Derives (.declaration anyway) (mark.toList ++ ms ++ name :: ts) next
        (.node i (.declare ms (ofName j name) types) mark false)
  | untyped : (∀ m ∈ mark, m.kind = .atSign) → Derives .modifiers ms m ms → name.kind = .var →
      Derives (.declaration false) (mark.toList ++ ms ++ [name]) next
        (.node i (.declare ms (ofName j name) []) mark false)
  | access {mark : Option Token} : (∀ m ∈ mark, m.kind = .atSign) →
      Derives .operand ts next t →
      Derives (.declaration false) (mark.toList ++ ts) next t
  | bare : Derives (.declaration false) ts next t → Derives (.binding stops) ts next t
  | bound : Derives (.declaration false) ts mark t → assigners.contains mark.kind = true →
      Derives (.expression stops false) us next v →
      Derives (.binding stops) (ts ++ mark :: us) next (ofAssignment i t v mark)
  | empty : stops.contains next.kind = true →
      Derives (.expression stops assignable) [] next (.node i .noOp none false)
  | settled : Derives (.chain stops) ts next t → endsExpression stops next.kind = true →
      Derives (.expression stops assignable) ts next t.grouped.freeze
  | assigned : Derives (.chain stops) ts mark t → assigners.contains mark.kind = true →
      Derives (.expression stops false) us next v →
      Derives (.expression stops true) (ts ++ mark :: us) next
        (ofAssignment i t.grouped.freeze v mark)
  | declared : Derives (.inline stops) ts next t →
      Derives (.expression stops assignable) ts next t
  | declaredAssigned : Derives (.inline stops) ts mark t → assigners.contains mark.kind = true →
      Derives (.expression stops false) us next v →
      Derives (.expression stops true) (ts ++ mark :: us) next (ofAssignment i t v mark)
  | inline : Derives (.chain stops) ts m t → t.shape = .name → t.frozen = false →
      Derives .typeList us next types →
      Derives (.inline stops) (ts ++ us) next (.node i (.declare [] t types) none false)
  | first : Derives (.term stops) ts next t → Derives (.chain stops) ts next t
  | binary : Derives (.chain stops) ts op l → joinsOperands stops op.kind = true →
      Derives (.term stops) us next r →
      Derives (.chain stops) (ts ++ op :: us) next (.node i (.binaryOp l r) (some op) false)
  | ternary : Derives (.chain stops) ts op l → op.kind = .ternary →
      stops.contains op.kind = false → Derives (.expression [.colon] false) us colon c →
      colon.kind = .colon →
      Derives (.expression stops false) vs next r →
      Derives (.chain stops) (ts ++ op :: us ++ colon :: vs) next
        (.node i (.ternaryOp l c r) (some op) false)
  | simple : Derives .operand ts next t → Derives (.term stops) ts next t
  | pointer : mark.kind = .multiply → Derives (.term stops) ts next t →
      Derives (.term stops) (mark :: ts) next
        (.node i (.unaryOp t .leading) (some { mark with kind := .point }) false)
  | leading : op.kind ∈ leadingOperators → Derives (.term stops) ts next t →
      Derives (.term stops) (op :: ts) next (.node i (.unaryOp t .leading) (some op) false)
  | plus : op.kind = .add → Derives (.term stops) ts next t →
      Derives (.term stops) (op :: ts) next t
  | func : keyword.kind = .funcKw → opener.kind = .parOpen →
      Derives (.items [.parClose] .parameter) ts closer ps → closer.kind = .parClose →
      arrow.kind = .direct → Derives (.funcBody stops) us next b →
      Derives (.term stops) (keyword :: opener :: ts ++ closer :: arrow :: us) next
        (.node i (.func ps b) (some keyword) false)
  | record : keyword.kind = .classKw ∨ keyword.kind = .structKw →
      Derives .heritage ts m [supers, interfaces] → Derives .memberBody us next b →
      Derives (.term stops) (keyword :: ts ++ us) next
        (.node i (.ofRecord keyword.kind supers interfaces b) (some keyword) false)
  | interface : keyword.kind = .interfaceKw → opener.kind = .parOpen →
      Derives (.items [.parClose] .name) ts closer supers → closer.kind = .parClose →
      arrow.kind = .direct → Derives .memberBody us next b →
      Derives (.term stops) (keyword :: opener :: ts ++ closer :: arrow :: us) next
        (.node i (.interfaceDef supers b) (some keyword) false)
  | enumeration : keyword.kind = .enumKw → Derives .heritage ts m [supers, interfaces] →
      opener.kind = .scopeOpen → Derives .instances us semi cs → semi.kind = .eol →
      Derives .memberBlock vs closer b → closer.kind = .scopeClose →
      Derives (.term stops) (keyword :: ts ++ opener :: us ++ semi :: vs ++ [closer]) next
        (.node i (.enumDef supers interfaces cs b) (some keyword) false)
  | atom : atomShape? token.kind = some (shape.map Tree.id) →
      Derives .operand [token] next (.node i shape (some token) false)
  | grouped : Derives .group ts next t → Derives .operand ts next t
  | container : Derives .collection ts next t → Derives .operand ts next t
  | index : Derives .operand ts opener t → opener.kind = .arrOpen →
      Derives (.expression [.colon, .arrClose] false) us closer x → closer.kind = .arrClose →
      Derives .operand (ts ++ opener :: us ++ [closer]) next
        (.node i (.index t x) (some opener) false)
  | slice : Derives .operand ts opener t → opener.kind = .arrOpen →
      Derives (.expression [.colon, .arrClose] false) us colon x → colon.kind = .colon →
      Derives (.expression [.colon, .arrClose] false) vs m z →
      Derives (.step .arrClose) os closer o.toList → closer.kind = .arrClose →
      Derives .operand (ts ++ opener :: us ++ colon :: vs ++ os ++ [closer]) next
        (.node i (.slice t x z o) (some opener) false)
  | get : Derives .operand ts dot t → dot.kind = .period ∨ dot.kind = .optChain →
      Derives .property us next p →
      Derives .operand (ts ++ dot :: us) next
        (.node i (.get t p (dot.kind = .optChain)) (some dot) false)
  | call : Derives .operand ts opener t → opener.kind = .parOpen →
      Derives (.items [.parClose] (.expression false)) us closer as → closer.kind = .parClose →
      Derives .operand (ts ++ opener :: us ++ [closer]) next
        (.node i (.call t as) (some opener) false)
  | trailing : Derives .operand ts op t → op.kind ∈ trailingOperators →
      Derives .operand (ts ++ [op]) next (.node i (.unaryOp t .trailing) (some op) false)
  | deref : Derives .operand ts mark t → mark.kind = .bAnd →
      Derives .operand (ts ++ [mark]) next
        (.node i (.unaryOp t .trailing) (some { mark with kind := .deref }) false)
  | rounding : Derives .operand ts op t → op.kind = .round →
      atomShape? token.kind = some (shape.map Tree.id) →
      Derives .operand (ts ++ [op, token]) next
        (.node i (.binaryOp t (.node j shape (some token) false)) (some op) true)
  | group : opener.kind = .parOpen → Derives (.expression [.parClose] false) ts closer t →
      closer.kind = .parClose → Derives .group (opener :: ts ++ [closer]) next t
  | name : token.kind = .var → Derives .name [token] next (ofName i token)
  | nameProperty : Derives .name ts next t → Derives .property ts next t
  | groupProperty : Derives .group ts next t → Derives .property ts next t
  | noStep : Derives (.step close) [] next []
  | step : colon.kind = .colon → Derives (.expression [close] false) ts next t →
      Derives (.step close) (colon :: ts) next [t]
  | shorthand : Container.ofShorthand? token.kind = some c → shape.map Tree.id = emptyShape c →
      Derives .collection [token] next (.node i shape (some token) false)
  | emptyList : opener.kind = .arrOpen ∨ opener.kind = .lArrOpen → closer.kind = .arrClose →
      Derives .collection [opener, closer] next
        (.node i (.ofList opener.kind []) (some opener) false)
  | list : opener.kind = .arrOpen ∨ opener.kind = .lArrOpen →
      Derives (.expression [.comma, .direct, .arrClose] false) ts m x →
      Derives .others us closer xs → closer.kind = .arrClose →
      Derives .collection (opener :: ts ++ us ++ [closer]) next
        (.node i (.ofList opener.kind (x :: xs)) (some opener) false)
  | range : opener.kind = .arrOpen ∨ opener.kind = .lArrOpen →
      Derives (.expression [.comma, .direct, .arrClose] false) ts arrow x → arrow.kind = .direct →
      Derives (.expression [.colon, .arrClose] false) us m z →
      Derives (.step .arrClose) os closer o.toList → closer.kind = .arrClose →
      Derives .collection (opener :: ts ++ arrow :: us ++ os ++ [closer]) next
        (.node i (.ofRange opener.kind x z o) (some opener) false)
  | noOthers : Derives .others [] next []
  | others : comma.kind = .comma → Derives (.items [.arrClose] (.expression false)) ts next xs →
      Derives .others (comma :: ts) next xs
  | set : opener.kind = .setOpen → Derives (.items [.setClose] (.expression false)) ts closer xs →
      closer.kind = .setClose →
      Derives .collection (opener :: ts ++ [closer]) next (.node i (.set xs) (some opener) false)
  | map : opener.kind = .scopeOpen → Derives (.entries named) ts closer ps →
      (named = true → ps ≠ []) → closer.kind = .scopeClose →
      Derives .collection (opener :: ts ++ [closer]) next
        (.node i (.ofEntries named ps) (some opener) false)
  | undirectedGraph : opener.kind = .undirOpen →
      Derives (.items [.eol, .undirClose] (.expression false)) ts m xs →
      Derives (.edges false) us closer es → closer.kind = .undirClose →
      Derives .collection (opener :: ts ++ us ++ [closer]) next
        (.node i (.ofGraph false xs es) (some opener) false)
  | directedGraph : opener.kind = .dirOpen →
      Derives (.items [.eol, .dirClose] (.expression false)) ts m xs →
      Derives (.edges true) us closer es → closer.kind = .dirClose →
      Derives .collection (opener :: ts ++ us ++ [closer]) next
        (.node i (.ofGraph true xs es) (some opener) false)
  | noEdges : Derives (.edges directed) [] next []
  | edges : semi.kind = .eol →
      Derives (.items [if directed then .dirClose else .undirClose] (.edge directed)) ts next es →
      Derives (.edges directed) (semi :: ts) next es
  | noEntries : Derives (.entries named) [] next []
  | lastEntry : Derives (.key named) ts colon k → colon.kind = .colon →
      Derives (.expression [.comma, .scopeClose] false) us next v →
      Derives (.entries named) (ts ++ colon :: us) next [(k, v)]
  | moreEntries : Derives (.key named) ts colon k → colon.kind = .colon →
      Derives (.expression [.comma, .scopeClose] false) us comma v → comma.kind = .comma →
      Derives (.entries named) rest next ps →
      Derives (.entries named) (ts ++ colon :: us ++ comma :: rest) next ((k, v) :: ps)
  | nameKey : Derives .name ts next t → Derives (.key true) ts next t
  | valueKey : Derives (.expression [.colon] false) ts next t → Derives (.key false) ts next t
  | expressionItem : Derives (.expression (.comma :: stops) assignable) ts next t →
      Derives (.item stops (.expression assignable)) ts next t
  | nameItem : Derives .name ts next t → Derives (.item stops .name) ts next t
  | parameterItem : Derives (.binding [.comma, .parClose]) ts next t →
      Derives (.item stops .parameter) ts next t
  | edge : Derives (.expression [.dirEdge, .dir2Edge] false) ts mark l →
      mark.kind = .dir2Edge ∨ directed = true ∧ mark.kind = .dirEdge →
      Derives (.expression (.comma :: stops) false) us next r →
      Derives (.item stops (.edge directed)) (ts ++ mark :: us) next
        (.node i (.ofEdge directed mark.kind l r) (some mark) false)
  | noItems : stops.contains next.kind = true → Derives (.items stops item) [] next []
  | lastItem : Derives (.item stops item) ts next x → Derives (.items stops item) ts next [x]
  | moreItems : Derives (.item stops item) ts comma x → comma.kind = .comma →
      Derives (.items stops item) us next xs →
      Derives (.items stops item) (ts ++ comma :: us) next (x :: xs)
  | bracedFunc : Derives .braced ts next b → Derives (.funcBody stops) ts next b
  | valueFunc : Derives (.expression stops false) ts next v →
      Derives (.funcBody stops) ts next
        (.node j (.block [.node i (.returnStep v) none false]) none false)
  | heritage : opener.kind = .parOpen → Derives (.items [.colon, .parClose] .name) ts closer xs →
      closer.kind = .parClose → arrow.kind = .direct →
      Derives .heritage (opener :: ts ++ [closer, arrow]) next [xs, []]
  | heritageOfBoth : opener.kind = .parOpen →
      Derives (.items [.colon, .parClose] .name) ts colon xs → colon.kind = .colon →
      Derives (.items [.parClose] .name) us closer zs → closer.kind = .parClose →
      arrow.kind = .direct →
      Derives .heritage (opener :: ts ++ colon :: us ++ [closer, arrow]) next [xs, zs]
  | noMembers : next.kind = .scopeClose → Derives .members [] next []
  | moreMembers : Derives .statement ts m t → t.shape.isMember = true →
      Derives .members us next bs → Derives .members (ts ++ us) next (t :: bs)
  | memberBlock : Derives .members ts next bs →
      Derives .memberBlock ts next (.node i (.block bs) none false)
  | emptyMembers : token.kind = .mapType →
      Derives .memberBody [token] next (.node i (.block []) none false)
  | memberBraces : opener.kind = .scopeOpen → Derives .memberBlock ts closer b →
      closer.kind = .scopeClose → Derives .memberBody (opener :: ts ++ [closer]) next b
  | lastInstance : Derives .instanceTerm ts next t → Derives .instances ts next [t]
  | instanceComma : Derives .instanceTerm ts comma t → comma.kind = .comma → next.kind = .eol →
      Derives .instances (ts ++ [comma]) next [t]
  | moreInstances : Derives .instanceTerm ts comma t → comma.kind = .comma →
      Derives .instances us next cs → Derives .instances (ts ++ comma :: us) next (t :: cs)
  | nameInstance : Derives .name ts next t → Derives .instanceTerm ts next t
  | callInstance : Derives .name ts opener t → opener.kind = .parOpen →
      Derives (.items [.parClose] (.expression false)) us closer as → closer.kind = .parClose →
      Derives .instanceTerm (ts ++ opener :: us ++ [closer]) next
        (.node i (.call t as) (some opener) false)
  | namedType {mark : Option Token} : (∀ m ∈ mark, m.kind = .multiply) →
      namesType token.kind = true →
      Derives .type (mark.toList ++ [token]) next (.named token mark.isSome)
  | shorthandType {mark : Option Token} : (∀ m ∈ mark, m.kind = .multiply) →
      Container.ofShorthand? token.kind = some c →
      Derives .type (mark.toList ++ [token]) next (.container token mark.isSome c [])
  | containerType {mark : Option Token} : (∀ m ∈ mark, m.kind = .multiply) →
      Container.ofOpener? opener.kind = some c → Derives .types ts closer elements →
      closer.kind = c.closer →
      Derives .type (mark.toList ++ opener :: ts ++ [closer]) next
        (.container opener mark.isSome c elements)
  | lastType : Derives .type ts next t → Derives .types ts next [t]
  | moreTypes : Derives .type ts comma t → comma.kind = .comma → Derives .types us next rest →
      Derives .types (ts ++ comma :: us) next (t :: rest)
  | typeList : opener.kind = .lessThan → Derives .types ts closer types →
      closer.kind = .greaterThan → Derives .typeList (opener :: ts ++ [closer]) next types

theorem opener_of_ofOpener? {k : Kind} {container : Container}
    (opens : Container.ofOpener? k = some container) : k = container.opener := by
  have found := List.find?_some opens
  exact (of_decide_eq_true found).symm

/-- The branches of a conditional begin with the keyword that the first of them carries. -/
theorem Derives.exists_branch {ts : List Token} {next : Token} {r : Yield.branches.Result}
    (derives : Derives .branches ts next r) :
    ∃ keyword us i c e bs, ts = keyword :: us ∧ keyword.kind = .ifKw ∧
      r.1 = .node i (.branch c e) (some keyword) false :: bs := by
  cases derives with
  | lastBranch branch =>
    cases branch
    exact ⟨_, _, _, _, _, _, rfl, ‹_›, rfl⟩
  | elseBranch branch =>
    cases branch
    exact ⟨_, _, _, _, _, _, rfl, ‹_›, rfl⟩
  | moreBranches branch =>
    cases branch
    exact ⟨_, _, _, _, _, _, rfl, ‹_›, rfl⟩

end ScriptSyntax
