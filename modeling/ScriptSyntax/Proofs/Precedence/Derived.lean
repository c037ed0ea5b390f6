import ScriptSyntax.Proofs.Precedence.Phrase

/-! Every node of what a phrase yields obeys precedence among the tokens of the phrase. -/
namespace ScriptSyntax

attribute [local simp] Shape.children

open ScriptSyntax.Tree (stack)

/-- The finished trees of a result. The operators of a chain are not grouped yet. -/
@[simp] def Phrase.parts : {y : Yield} → Phrase y → y.Result → List Tree
  | _, .chain _, t => t.operands
  | y, _, r => y.trees r

/-- All nodes of the trees obey precedence among the tokens. -/
def Keeps (ts : List Token) (trees : List Tree) : Prop :=
  ts.Nodup → ∀ t ∈ trees, ∀ p ∈ t.nodes, p.Obeys ts

namespace Keeps

variable {ts us : List Token} {as bs : List Tree} {t : Tree} {i : NodeId} {s : Shape Tree}
  {k : Option Token} {f : Bool}

theorem nil : Keeps ts [] := by
  intro _ t member
  contradiction

theorem widen (keeps : Keeps us as) (within : us <:+: ts) : Keeps ts as :=
  fun nodup t member p inside =>
    (keeps (nodup.sublist within.sublist) t member p inside).widen within

theorem after (keeps : Keeps ts as) (t : Token) : Keeps (t :: ts) as :=
  keeps.widen (List.suffix_cons ..).isInfix

theorem before (keeps : Keeps ts as) (t : Token) : Keeps (ts ++ [t]) as :=
  keeps.widen (List.prefix_append ..).isInfix

theorem append (first : Keeps ts as) (second : Keeps us bs) : Keeps (ts ++ us) (as ++ bs) := by
  intro nodup t member
  rcases List.mem_append.mp member with h | h
  · exact first.widen (List.prefix_append ..).isInfix nodup t h
  · exact second.widen (List.suffix_append ..).isInfix nodup t h

theorem node (plain : (Tree.node i s k f).isOperator = false) (below : Keeps ts s.children) :
    Keeps ts [.node i s k f] := by
  intro nodup t member p inside
  obtain rfl := List.mem_singleton.mp member
  rcases Tree.mem_nodes_iff.mp inside with rfl | ⟨c, child, inner⟩
  · exact Tree.obeys_of_plain plain
  · exact below nodup c child p inner

theorem node_cons (plain : (Tree.node i s k f).isOperator = false) (below : Keeps ts s.children)
    (rest : Keeps us bs) : Keeps (ts ++ us) (.node i s k f :: bs) :=
  (node plain below).append rest

theorem leaf (leaf : s.children = []) : Keeps ts [.node i s k f] :=
  node (Tree.isOperator_of_leaf leaf) (leaf ▸ nil)

theorem freeze (keeps : Keeps ts [t]) : Keeps ts [t.freeze] := by
  intro nodup u member p inside
  obtain rfl := List.mem_singleton.mp member
  have all := keeps nodup t (List.mem_singleton_self t)
  rcases Tree.mem_nodes_iff.mp inside with rfl | ⟨c, child, inner⟩
  · exact (all t t.self_mem_nodes).freeze
  · rw [Tree.children_freeze] at child
    exact all p (Tree.nodes_trans inner (Tree.child_mem_nodes child t.self_mem_nodes))

/-- Grouping a chain makes its operators obey. -/
theorem grouped {stops : List Kind} {next : Token} (derives : Derives (.chain stops) ts next t)
    (keeps : Keeps ts t.operands) : Keeps ts [t.grouped] := by
  intro nodup u member
  obtain rfl := List.mem_singleton.mp member
  obtain ⟨base, links, rfl, chain⟩ := derives.tells nodup
  have parts := keeps nodup
  rw [Tree.operands, Tree.chain_stack chain.settled.closed chain.opened] at parts
  rw [Tree.grouped_stack chain.settled chain.opened]
  refine chain.chained.obeys (parts base (by simp)) fun l link t part => parts t ?_
  exact List.mem_cons_of_mem _ (List.mem_flatMap.mpr ⟨l, link, part⟩)

/-- A finished operator at the end of an operand has the operand apart from it. -/
theorem rounding {op : Token} (term : ts.Nodup → t.IsTerm ts) (round : op.kind = .round)
    (keeps : Keeps ts [t]) {place : Tree} (plain : place.isOperator = false)
    (below : Keeps us [place]) :
    Keeps (ts ++ op :: us) [.node i (.binaryOp t place) (some op) f] := by
  intro nodup u member p inside
  obtain rfl := List.mem_singleton.mp member
  obtain ⟨first, -, disjoint⟩ := List.nodup_append.mp nodup
  rcases Tree.mem_nodes_iff.mp inside with rfl | ⟨c, child, inner⟩
  · constructor
    case ranked =>
      have rank := congrArg Kind.precedence round
      exact fun _ => ⟨4, rank.trans rfl⟩
    case left =>
      intro c left
      obtain rfl := Option.some.inj left
      left
      apply (term first).apart.widen (List.prefix_append ..).isInfix
      rw [Tree.token_node, Option.toList_some, List.forall_mem_singleton,
        Token.written_of_kind (by rw [round]; rfl)]
      exact .inr fun inside => disjoint _ inside _ (by simp) rfl
    case right =>
      intro l c same
      obtain ⟨-, rfl⟩ : _ ∧ place = c := by simpa using same
      exact .inl (Tree.apart_of_plain plain)
  · exact keeps.append (below.after op) nodup c (by simpa using child) p inner

end Keeps

open Keeps

theorem Derives.keeps {y : Yield} {p : Phrase y} {ts : List Token} {next : Token} {r : y.Result}
    (derives : Derives p ts next r) : Keeps ts (p.parts r) := by
  induction derives with
  | nothing | noStatements | noOtherwise | noCases | noCatches | empty | noStep | noOthers | noEdges
  | noEntries | noItems | noMembers | modifiers | name | lastType | moreTypes | typeList | namedType
  | shorthandType | containerType | emptyBraces | emptyMembers =>
    first | exact .nil | exact .leaf rfl
  | word member =>
    simp only [wordShapes, List.mem_cons, Prod.mk.injEq, List.not_mem_nil, or_false] at member
    rcases member with ⟨-, rfl⟩ | ⟨-, rfl⟩ | ⟨-, rfl⟩ <;> exact .leaf rfl
  | plain _ _ inner => simpa using inner.before _
  | conditional _ _ inner => exact .node rfl (by simpa using inner)
  | loop _ _ _ few _ _ _ _ sections body otherwise =>
    refine .node (by unfold Shape.ofSections; split <;> rfl) ?_
    rw [Grammar.children_ofSections few]
    simpa using ((sections.after _).after _).append (((body.after _).after _).append otherwise)
  | switch _ _ _ _ _ _ _ subject cases otherwise =>
    refine .node rfl ?_
    simpa using (subject.after _).append
      (((cases.after _).after _).append (otherwise.after _))
  | guarded _ _ _ _ body catches otherwise =>
    exact .node rfl (by simpa using (body.after _).append (catches.append otherwise))
  | returned _ _ inner | deferred _ _ inner => exact .node rfl (by simpa using inner.after _)
  | bindingStatement _ inner | expressionStatement _ inner | bracedBody _ inner
  | lastBranch _ inner | lastSection _ inner | bare _ inner | declared _ inner | simple _ inner
  | grouped _ inner | container _ inner | nameProperty _ inner | groupProperty _ inner
  | nameKey _ inner | valueKey _ inner | expressionItem _ inner | nameItem _ inner
  | parameterItem _ inner | lastItem _ inner | bracedFunc _ inner | lastInstance _ inner
  | nameInstance _ inner => simpa using inner
  | block _ inner | singleBody _ inner | memberBlock _ inner =>
    exact .node rfl (by simpa using inner)
  | moreStatements _ _ first rest | moreMembers _ _ _ first rest => simpa using first.append rest
  | braces _ _ _ inner | memberBraces _ _ _ inner | group _ _ _ inner =>
    simpa using (inner.after _).before _
  | otherwise _ _ _ body => simpa using (body.after _).after _
  | branch _ _ _ _ condition body =>
    exact .node rfl (by simpa using (condition.after _).append (body.after _))
  | elseBranch _ _ _ _ first last => simpa using first.append ((last.after _).after _)
  | moreBranches _ _ _ first rest | moreSections _ _ _ first rest | moreItems _ _ _ first rest
  | moreInstances _ _ _ first rest | lastEntry _ _ _ first rest =>
    simpa using first.append (rest.after _)
  | instanceComma _ _ _ first => simpa using first.before _
  | moreEntries _ _ _ _ _ key value rest =>
    simpa using key.append ((value.after _).append (rest.after _))
  | valueCase _ _ _ _ _ value body rest =>
    exact .node_cons rfl (by simpa using (value.after _).append (body.after _)) rest
  | defaultCase _ _ _ _ body rest =>
    exact .node_cons rfl (by simpa using (body.after _).after _) rest
  | moreCatches _ _ _ _ declaration body rest =>
    exact .node_cons rfl (by simpa using (declaration.after _).append body) rest
  | typed | untyped => exact .node rfl (.leaf rfl)
  | access _ _ inner => simpa using inner.widen (List.suffix_append ..).isInfix
  | bound _ _ _ target value | declaredAssigned _ _ _ target value =>
    exact .node rfl (by simpa using target.append (value.after _))
  | settled chain _ inner => exact (Keeps.grouped chain inner).freeze
  | assigned chain _ _ target value =>
    exact .node rfl (by simpa using (Keeps.grouped chain target).freeze.append (value.after _))
  | @inline _ _ _ t _ _ _ _ _ name _ _ inner =>
    have plain : t.isOperator = false := by rw [Tree.isOperator, name]; rfl
    have same := Tree.operands_of_closed (Tree.settled_of_plain plain).closed
    refine .node rfl (widen ?_ (List.prefix_append ..).isInfix)
    simpa [same] using inner
  | first term inner =>
    intro nodup
    have closed := (term.tells nodup).settled.closed
    simpa [Tree.operands_of_closed closed] using inner nodup
  | binary _ joins _ left right =>
    obtain ⟨rank, ranked⟩ := exists_rank_of_joinsOperands joins
    rw [Phrase.parts, Tree.operands_binaryOp ranked]
    exact left.append (right.after _)
  | ternary _ kind _ _ _ _ left center right =>
    have ranked := congrArg Kind.precedence kind
    rw [Phrase.parts, Tree.operands_ternaryOp (ranked.trans rfl)]
    simpa using (left.append (center.after _)).append (right.after _)
  | pointer _ _ inner | leading _ _ inner => exact .node rfl (by simpa using inner.after _)
  | plus _ _ inner => simpa using inner.after _
  | func _ _ _ _ _ _ params body =>
    exact .node rfl (by simpa using ((params.after _).after _).append ((body.after _).after _))
  | record _ _ _ heritage body =>
    refine .node (by unfold Shape.ofRecord; split <;> rfl) ?_
    unfold Shape.ofRecord
    split <;> simpa using (heritage.after _).append body
  | interface _ _ _ _ _ _ supers body =>
    exact .node rfl (by simpa using ((supers.after _).after _).append ((body.after _).after _))
  | enumeration _ _ _ _ _ _ _ heritage instances body =>
    refine .node rfl ?_
    simpa using ((heritage.after _).append (instances.after _)).append ((body.after _).before _)
  | atom found => exact .leaf (leaf_of_atomShape? found)
  | shorthand _ same => exact .leaf (leaf_of_emptyShape same)
  | index _ _ _ _ target place =>
    exact .node rfl (by simpa using target.append ((place.after _).before _))
  | slice _ _ _ _ _ _ _ target first last step =>
    refine .node rfl ?_
    simpa using target.append ((first.after _).append ((last.after _).append (step.before _)))
  | get _ _ _ target property => exact .node rfl (by simpa using target.append (property.after _))
  | call _ _ _ _ target args | callInstance _ _ _ _ target args =>
    exact .node rfl (by simpa using target.append ((args.after _).before _))
  | trailing _ _ operand | deref _ _ operand => exact .node rfl (by simpa using operand.before _)
  | rounding operand round found inner =>
    exact .rounding operand.tells round (by simpa using inner)
      (Tree.isOperator_of_leaf (leaf_of_atomShape? found)) (.leaf (leaf_of_atomShape? found))
  | step _ _ inner | others _ _ inner | edges _ _ inner => simpa using inner.after _
  | emptyList =>
    unfold Shape.ofList
    split <;> exact .leaf rfl
  | list _ _ _ _ first rest =>
    unfold Shape.ofList
    split <;> exact .node rfl (by simpa using (first.after _).append (rest.before _))
  | range _ _ _ _ _ _ first last step =>
    unfold Shape.ofRange
    split <;> refine .node rfl ?_ <;>
      simpa using (first.after _).append ((last.after _).append (step.before _))
  | set _ _ _ items => exact .node rfl (by simpa using (items.after _).before _)
  | map _ _ _ _ entries =>
    unfold Shape.ofEntries
    split <;> exact .node rfl (by simpa using (entries.after _).before _)
  | undirectedGraph _ _ _ _ nodes edges | directedGraph _ _ _ _ nodes edges =>
    refine .node rfl ?_
    simpa [Shape.ofGraph] using (nodes.after _).append (edges.before _)
  | edge _ _ _ left right =>
    unfold Shape.ofEdge
    split <;> exact .node rfl (by simpa using left.append (right.after _))
  | valueFunc _ inner => exact .node rfl (.node rfl (by simpa using inner))
  | heritage _ _ _ _ names => simpa using ((names.after _).before _).before _
  | heritageOfBoth _ _ _ _ _ _ supers interfaces =>
    simpa using (supers.after _).append (((interfaces.after _).before _).before _)

end ScriptSyntax
