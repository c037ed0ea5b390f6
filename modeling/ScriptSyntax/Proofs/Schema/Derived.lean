import ScriptSyntax.Proofs.Derivation.Expression
import ScriptSyntax.Proofs.Derivation.Statement
import ScriptSyntax.Proofs.Reading.Derived
import ScriptSyntax.Proofs.Schema.Phrase
import ScriptSyntax.Proofs.Schema.Slot

/-! All nodes of what a phrase yields keep the layers and have the forms that their shapes ask
for. -/
namespace ScriptSyntax

/-- Whether the shape is that of a literal or of a name. -/
def Shape.isAtomic {α : Type} : Shape α → Bool
  | name | intLiteral | realLiteral | stringLiteral | booleanLiteral | nullLiteral => true
  | _ => false

theorem Shape.isAtomic_map {α β : Type} (f : α → β) (s : Shape α) :
    (s.map f).isAtomic = s.isAtomic := by
  cases s <;> rfl

theorem Grammar.isAtomic_of_atomShape? {k : Kind} {s : Shape NodeId}
    (found : atomShape? k = some s) : s.isAtomic = true := by
  unfold atomShape? literalShape? at found
  split at found
  case h_7 =>
    rw [Option.orElse_eq_orElse, Option.orElse_none] at found
    split at found
    · cases found
      rfl
    · contradiction
  all_goals
    cases found
    rfl

def Item.slot : Item → Slot
  | expression assignable => if assignable then .header else .operand
  | name => .operand
  | parameter => .parameter
  | edge directed => if directed then .directedEdge else .edge

/-- What holds of every node. -/
structure Tree.Conforms (n : Tree) : Prop where
  placed : n.WellPlaced
  formed : n.WellFormed

/-- The trees may stand in their places, and all of their nodes conform. -/
def Placed (xs : List (Slot × Tree)) : Prop :=
  ∀ x ∈ xs, x.1.admits x.2.shape.stratum = true ∧ ∀ n ∈ x.2.nodes, n.Conforms

namespace Placed

variable {xs ys : List (Slot × Tree)} {slot slot' : Slot} {t : Tree} {ts : List Tree} {i : NodeId}
  {s : Shape Tree} {k : Option Token} {f : Bool}

theorem nil : Placed [] := by
  intro x member
  contradiction

theorem append (first : Placed xs) (second : Placed ys) : Placed (xs ++ ys) :=
  List.forall_mem_append.mpr ⟨first, second⟩

/-- A place that admits more. -/
theorem widen (placed : Placed [(slot, t)])
    (more : ∀ stratum, slot.admits stratum = true → slot'.admits stratum = true) :
    Placed [(slot', t)] := by
  obtain ⟨fits, conform⟩ := List.forall_mem_singleton.mp placed
  exact List.forall_mem_singleton.mpr ⟨more _ fits, conform⟩

/-- An expression stands wherever one is admitted. -/
theorem value (placed : Placed [(.operand, t)]) (stands : slot.admits .expression = true) :
    Placed [(slot, t)] := by
  apply placed.widen
  intro stratum fits
  rw [show stratum = .expression by simpa [Slot.admits] using fits]
  exact stands

/-- What may be a parameter or stand in the header of a loop is a statement as well. -/
theorem statement (placed : Placed [(slot, t)]) (binds : slot = .parameter ∨ slot = .header) :
    Placed [(.statement, t)] := by
  apply placed.widen
  intro stratum fits
  rcases binds with rfl | rfl <;> cases stratum <;> first | rfl | contradiction

/-- A node over children that stand in its places. -/
theorem node (fits : slot.admits s.stratum = true) (formed : (Tree.node i s k f).WellFormed)
    (below : Placed s.slots) : Placed [(slot, .node i s k f)] := by
  intro x member
  obtain rfl := List.mem_singleton.mp member
  constructor
  · exact fits
  · intro n inside
    rcases Tree.mem_nodes_iff.mp inside with rfl | ⟨c, child, inner⟩
    · exact ⟨fun x member => (below x member).1, formed⟩
    · obtain ⟨place, held⟩ := Shape.exists_slot child
      exact (below _ held).2 n inner

theorem leaf (fits : slot.admits s.stratum = true) (formed : (Tree.node i s k f).WellFormed)
    (leaf : s.children = []) : Placed [(slot, .node i s k f)] := by
  apply node fits formed
  intro x member
  have child := List.mem_map_of_mem (f := Prod.snd) member
  rw [Shape.map_snd_slots, leaf] at child
  contradiction

/-- A node in front of others that stand in places of one kind. -/
theorem node_cons (fits : slot.admits s.stratum = true) (formed : (Tree.node i s k f).WellFormed)
    (below : Placed s.slots) (rest : Placed (ts.map (slot, ·))) :
    Placed ((Tree.node i s k f :: ts).map (slot, ·)) :=
  (node fits formed below).append rest

theorem children (placed : Placed [(slot, t)]) : Placed t.shape.slots := by
  intro x member
  obtain ⟨-, conform⟩ := placed _ (List.mem_singleton_self _)
  have child : x.2 ∈ t.children := by
    rw [Tree.children, ← Shape.map_snd_slots]
    exact List.mem_map_of_mem member
  constructor
  · exact (conform t t.self_mem_nodes).placed x member
  · intro n inside
    exact conform n (Tree.nodes_trans inside (Tree.child_mem_nodes child t.self_mem_nodes))

theorem freeze (placed : Placed [(slot, t)]) : Placed [(slot, t.freeze)] := by
  obtain ⟨fits, conform⟩ := placed _ (List.mem_singleton_self _)
  obtain ⟨i, s, k, f⟩ := t
  exact node fits (conform _ (Tree.self_mem_nodes _)).formed placed.children

/-- An operator stands as an operand where its own operands do. -/
theorem join_iff (l : Link) (left right : Tree) :
    Placed [(.operand, l.join left right)] ↔ Placed [(.operand, left)] ∧
      (∀ c ∈ l.center, Placed [(.operand, c)]) ∧ Placed [(.operand, right)] := by
  have shaped : Placed [(.operand, l.join left right)] ↔ Placed (l.shape left right).slots := by
    constructor
    · intro placed
      exact placed.children
    · intro below
      unfold Link.join Link.shape at *
      split at below <;> exact node rfl trivial below
  rw [shaped, Link.shape]
  split <;> simp [Placed, Shape.slots, Shape.children, *]

theorem assignment {target value : Tree} {mark : Token}
    (fits : slot.admits .assignment = true) (first : Placed [(.operand, target)])
    (second : Placed [(.operand, value)]) :
    Placed [(slot, .ofAssignment i target value mark)] := by
  refine node fits ?_ (first.append second)
  simp [Tree.WellFormed, Tree.kind?]

/-- A literal or a name. -/
theorem atom {ids : Shape NodeId} {kind : Kind} (found : Grammar.atomShape? kind = some ids)
    (same : s.map Tree.id = ids) : Placed [(.operand, .node i s k f)] := by
  have simple : s.isAtomic = true := by
    rw [← Shape.isAtomic_map Tree.id, same]
    exact Grammar.isAtomic_of_atomShape? found
  cases s <;> first | exact leaf rfl trivial rfl | contradiction

theorem list {opener : Token} (opens : opener.kind = .arrOpen ∨ opener.kind = .lArrOpen)
    (items : Placed (ts.map (.operand, ·))) :
    Placed [(.operand, .node i (.ofList opener.kind ts) (some opener) f)] := by
  unfold Shape.ofList
  split
  · next linked => exact node rfl (.inl (congrArg some linked)) items
  · next unlinked => exact node rfl (.inl (congrArg some (opens.resolve_right unlinked))) items

theorem range {opener : Token} {start stop : Tree} {step : Option Tree}
    (opens : opener.kind = .arrOpen ∨ opener.kind = .lArrOpen)
    (bounds : Placed ((start :: stop :: step.toList).map (.operand, ·))) :
    Placed [(.operand, .node i (.ofRange opener.kind start stop step) (some opener) f)] := by
  unfold Shape.ofRange
  split
  · next linked => exact node rfl (.inl (congrArg some linked)) bounds
  · next unlinked => exact node rfl (.inl (congrArg some (opens.resolve_right unlinked))) bounds

theorem map {named : Bool} {opener : Token} {entries : List (Tree × Tree)}
    (opens : opener.kind = .scopeOpen) (forms : (Phrase.entries named).Forms entries)
    (nonempty : named = true → entries ≠ [])
    (below : Placed ((Yield.trees .pairs entries).map (.operand, ·))) :
    Placed [(.operand, .node i (.ofEntries named entries) (some opener) f)] := by
  have opened : (Tree.node i (.ofEntries named entries) (some opener) f).kind? = some .scopeOpen :=
    congrArg some opens
  cases named with
  | false => exact node rfl (.inl opened) below
  | true => exact node rfl ⟨.inl opened, nonempty rfl, forms rfl⟩ below

theorem edge {directed : Bool} {kind : Kind} {left right : Tree}
    (first : Placed [(.operand, left)]) (second : Placed [(.operand, right)]) :
    Placed [((Item.edge directed).slot, .node i (.ofEdge directed kind left right) k f)] := by
  cases directed <;> exact node rfl trivial (first.append second)

/-- A container written in its shorthand. -/
theorem shorthand {token : Token} {c : Container}
    (found : Container.ofShorthand? token.kind = some c)
    (same : s.map Tree.id = Grammar.emptyShape c) :
    Placed [(.operand, .node i s (some token) f)] := by
  have kind : token.kind = c.shorthand := by
    have shown := List.find?_some found
    exact (of_decide_eq_true shown).symm
  have empty := leaf_of_emptyShape same
  cases c <;> cases s <;> simp only [Grammar.emptyShape, Shape.map, reduceCtorEq] at same
  all_goals
    refine leaf rfl ?_ empty
    simp_all [Tree.WellFormed, Tree.Opens, Tree.kind?, Shape.children]

theorem grouped (placed : Placed [(.operand, t)]) : Placed [(.operand, t.grouped)] :=
  (Tree.grouped_iff (P := fun t => Placed [(.operand, t)]) join_iff t).mpr placed

end Placed

/-- The trees of a result, each with a place where it may stand. -/
@[simp] def Phrase.places : {y : Yield} → Phrase y → y.Result → List (Slot × Tree)
  | _, .statement, t | _, .plain, t => [(.statement, t)]
  | _, .statements _, ts | _, .members, ts => ts.map (.statement, ·)
  | _, .block _, t | _, .braced, t | _, .body, t | _, .funcBody _, t | _, .memberBlock, t
  | _, .memberBody, t => [(.body, t)]
  | _, .otherwise, ts => ts.map (.body, ·)
  | _, .branch, t => [(.branch, t)]
  | _, .branches, (ts, o) => ts.map (.branch, ·) ++ o.toList.map (.body, ·)
  | _, .sections, ss => ss.flatten.map (.header, ·)
  | _, .cases, ts => ts.map (.caseArm, ·)
  | _, .catches, ts => ts.map (.catchArm, ·)
  | _, .binding _, t => [(.parameter, t)]
  | _, .expression _ assignable, t => [((Item.expression assignable).slot, t)]
  | _, .item _ sort, t => [(sort.slot, t)]
  | _, .items _ sort, ts => ts.map (sort.slot, ·)
  | _, .edges directed, ts => ts.map ((Item.edge directed).slot, ·)
  | y, _, r => (y.trees r).map (.operand, ·)

theorem Shape.slots_ofSections {sections : List (List Tree)} (few : sections.length ≤ 3)
    (body : Tree) (otherwise : Option Tree) :
    (Shape.ofSections sections body otherwise).slots =
      sections.flatten.map (.header, ·) ++ (.body, body) :: otherwise.toList.map (.body, ·) := by
  match sections, few with
  | [], _ | [_], _ | [_, _], _ | [_, _, _], _ => simp [ofSections, slots]

open Placed

theorem Derives.placed {y : Yield} {p : Phrase y} {ts : List Token} {next : Token} {r : y.Result}
    (derives : Derives p ts next r) : Placed (p.places r) := by
  have assignable (a : Bool) : (Item.expression a).slot.admits .expression = true := by
    cases a <;> rfl
  induction derives with
  | nothing => exact .leaf rfl trivial rfl
  | empty => exact value (.leaf rfl trivial rfl) (assignable _)
  | name => exact .leaf rfl trivial rfl
  | noStatements | noOtherwise | noCases | noCatches | noStep | noOthers | noEdges | noEntries
  | noItems | noMembers | modifiers | lastType | moreTypes | typeList | namedType | shorthandType
  | containerType => exact .nil
  | emptyBraces | emptyMembers => exact .leaf rfl trivial rfl
  | word member =>
    simp only [wordShapes, List.mem_cons, Prod.mk.injEq, List.not_mem_nil, or_false] at member
    rcases member with ⟨-, rfl⟩ | ⟨-, rfl⟩ | ⟨-, rfl⟩ <;> exact .leaf rfl trivial rfl
  -- A phrase that yields what its part yields.
  | plain _ _ inner | bracedBody _ inner | lastBranch _ inner | simple _ inner | grouped _ inner
  | container _ inner | nameProperty _ inner | groupProperty _ inner | nameKey _ inner
  | valueKey _ inner | expressionItem _ inner | nameItem _ inner | parameterItem _ inner
  | lastItem _ inner | bracedFunc _ inner | lastInstance _ inner | nameInstance _ inner
  | braces _ _ _ inner | memberBraces _ _ _ inner | group _ _ _ inner | otherwise _ _ _ inner
  | instanceComma _ _ _ inner | access _ _ inner | plus _ _ inner | step _ _ inner
  | others _ _ inner | edges _ _ inner | first _ inner => exact inner
  | bindingStatement _ inner => exact inner.statement (.inl rfl)
  | expressionStatement _ inner => exact inner.statement (.inr rfl)
  | conditional branches _ inner => exact .node rfl branches.forms inner
  -- The shape of a loop depends on how many sections its header has.
  | loop _ _ _ few _ _ _ _ sections body otherwise =>
    refine .node (by unfold Shape.ofSections; split <;> rfl)
      (by unfold Shape.ofSections; split <;> trivial) ?_
    rw [Shape.slots_ofSections few]
    exact sections.append (body.append otherwise)
  | switch _ _ _ _ _ _ _ subject cases otherwise =>
    exact .node rfl trivial (subject.append (cases.append otherwise))
  | guarded _ _ _ _ body catches otherwise =>
    exact .node rfl trivial (body.append (catches.append otherwise))
  | returned _ _ inner | deferred _ _ inner => exact .node rfl trivial inner
  | block _ inner | singleBody _ inner | memberBlock _ inner => exact .node rfl trivial inner
  | moreStatements _ _ first rest | moreMembers _ _ _ first rest | moreItems _ _ _ first rest
  | moreInstances _ _ _ first rest => exact first.append rest
  | lastSection _ inner => simpa [Item.slot] using inner
  | moreSections _ _ _ first rest => simpa [Item.slot] using first.append rest
  | branch _ _ _ _ condition body => exact .node rfl trivial (condition.append body)
  | elseBranch _ _ _ _ first last => exact first.append last
  | moreBranches _ _ _ first rest => exact first.append rest
  | valueCase keyword _ _ _ _ value body rest =>
    refine .node_cons rfl ?_ (value.append body) rest
    simp [Tree.WellFormed, Tree.kind?, keyword]
  | defaultCase keyword _ _ _ body rest =>
    refine .node_cons rfl ?_ body rest
    simp [Tree.WellFormed, Tree.kind?, keyword]
  | moreCatches _ declaration _ _ caught body rest =>
    exact .node_cons rfl (declaration.forms rfl) (caught.append body) rest
  | typed | untyped => exact .node rfl trivial (.leaf rfl trivial rfl)
  | bare _ inner => exact inner.value rfl
  | bound _ _ _ target value => exact .assignment rfl target value
  -- A chain of operators is regrouped and frozen, neither of which moves a node to another layer.
  | settled _ _ inner => exact inner.grouped.freeze.value (assignable _)
  | assigned _ _ _ target value => exact .assignment rfl target.grouped.freeze value
  | declared _ inner => exact inner.value (assignable _)
  | declaredAssigned _ _ _ target value => exact .assignment rfl target value
  | inline _ _ _ _ inner => exact .node rfl trivial inner
  | binary _ _ _ left right => exact .node rfl trivial (left.append right)
  | ternary _ _ _ _ _ _ left center right =>
    exact .node rfl trivial (left.append (center.append right))
  | pointer _ _ inner | leading _ _ inner | trailing _ _ inner | deref _ _ inner =>
    exact .node rfl trivial inner
  | func _ _ _ _ _ _ params body => exact .node rfl trivial (params.append body)
  | record _ _ members heritage body =>
    unfold Shape.ofRecord
    split <;> exact .node rfl members.forms (by simpa [Shape.slots] using heritage.append body)
  | interface _ _ _ _ _ members supers body =>
    exact .node rfl members.forms (supers.append body)
  | enumeration _ _ _ instances _ members _ heritage cases body =>
    refine .node rfl ⟨instances.forms.1, instances.forms.2, members.forms⟩ ?_
    simpa [Shape.slots] using heritage.append (cases.append body)
  | atom found => exact .atom found rfl
  | index _ _ _ _ target place => exact .node rfl trivial (target.append place)
  | slice _ _ _ _ _ _ _ target first last step =>
    exact .node rfl trivial (target.append (first.append (last.append step)))
  | get _ kind _ target property =>
    refine .node rfl ?_ (target.append property)
    simp [Tree.WellFormed, Tree.kind?]
  | call _ _ _ _ target args | callInstance _ _ _ _ target args =>
    exact .node rfl trivial (target.append args)
  | rounding _ _ found inner => exact .node rfl trivial (inner.append (.atom found rfl))
  | shorthand found same => exact .shorthand found same
  | emptyList opens => exact .list opens .nil
  | list opens _ _ _ first rest => exact .list opens (first.append rest)
  | range opens _ _ _ _ _ start stop step => exact .range opens (start.append (stop.append step))
  | set opens _ _ items => exact .node rfl (.inl (congrArg some opens)) items
  | map opens entries nonempty _ inner => exact .map opens entries.forms nonempty inner
  | undirectedGraph opens _ edges _ nodes points =>
    exact .node rfl ⟨.inl (congrArg some opens), edges.forms⟩ (nodes.append points)
  | directedGraph opens _ edges _ nodes points =>
    exact .node rfl ⟨.inl (congrArg some opens), edges.forms⟩ (nodes.append points)
  | lastEntry _ _ _ key value => exact key.append value
  | moreEntries _ _ _ _ _ key value rest => exact (key.append value).append rest
  | edge _ _ _ left right => exact .edge left right
  | valueFunc _ inner => exact .node rfl trivial (.node rfl trivial inner)
  | heritage _ _ _ _ names => simpa [Item.slot] using names
  | heritageOfBoth _ _ _ _ _ _ supers interfaces =>
    simpa [Item.slot] using supers.append interfaces

end ScriptSyntax
