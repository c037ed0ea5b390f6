import ScriptSyntax.Proofs.Derivation.Expression
import ScriptSyntax.Proofs.Derivation.Statement
import ScriptSyntax.Proofs.Reading.Lost

/-! What a phrase yields carries the tokens of the phrase in their order, without some that may be
lost where they stand. -/
namespace ScriptSyntax

attribute [local simp] Shape.children

/-- The tokens that a result carries. -/
@[simp] def Yield.reading : (y : Yield) → y.Result → List Token
  | tokens, ts => ts
  | type, t => t.tokens
  | types, ts => TypeTerm.tokensAll ts
  | node, t => t.reading
  | nodes, ts => ts.flatMap Tree.reading
  | pairs, ps => (ps.flatMap fun p => [p.1, p.2]).flatMap Tree.reading
  | sections, ss => ss.flatten.flatMap Tree.reading
  | branches, (ts, o) => ts.flatMap Tree.reading ++ o.toList.flatMap Tree.reading

namespace Tree

variable {i : NodeId} {s : Shape Tree} {k : Option Token} {f : Bool}

@[simp] theorem reading_node :
    (node i s k f).reading = spell s k (s.children.map reading) :=
  reading_eq _

@[simp] theorem flatten_map_reading (ts : List Tree) :
    (ts.map reading).flatten = ts.flatMap reading := rfl

theorem reading_leaf (leaf : s.children = []) : (node i s k f).reading = k.toList := by
  rw [reading_node, leaf]
  cases s <;> simp_all [spell, Shape.children, Shape.isInfix]

@[simp] theorem reading_ofName (name : Token) : (ofName i name).reading = [name] :=
  reading_leaf rfl

/-- Most nodes carry their token before all children. -/
theorem reading_ahead (ahead : ∀ parts, spell s k parts = k.toList ++ parts.flatten) :
    (node i s k f).reading = k.toList ++ s.children.flatMap reading := by
  rw [reading_node, ahead, List.flatMap]

end Tree

open ScriptSyntax.Tree (reading_node reading_leaf reading_ahead spell)

section Leaf

variable {k : Kind} {shape : Shape Tree} {container : Container}

theorem Shape.children_eq_nil {ids : Shape NodeId} (same : shape.map Tree.id = ids)
    (leaf : ∃ other : Shape Tree, other.map Tree.id = ids ∧ other.children = []) :
    shape.children = [] := by
  obtain ⟨other, eq, empty⟩ := leaf
  have children := congrArg Shape.children (same.trans eq.symm)
  rw [Shape.children_map, Shape.children_map, empty] at children
  exact List.map_eq_nil_iff.mp children

theorem leaf_of_atomShape? (found : Grammar.atomShape? k = some (shape.map Tree.id)) :
    shape.children = [] :=
  Shape.children_eq_nil rfl (Grammar.atomShape?_eq_map found)

theorem leaf_of_emptyShape (same : shape.map Tree.id = Grammar.emptyShape container) :
    shape.children = [] :=
  Shape.children_eq_nil same (Grammar.emptyShape_eq_map container)

theorem Kind.written_of {P : Kind → Bool} (holds : P k = true) (deref : P .deref = false)
    (point : P .point = false) : k.written = k := by
  cases k <;> first | rfl | simp_all

theorem Kind.written_of_or {a b : Kind} (either : k = a ∨ k = b) (first : a.written = a)
    (second : b.written = b) : k.written = k := by
  rcases either with rfl | rfl <;> assumption

theorem written_of_atomShape? {ids : Shape NodeId} (found : Grammar.atomShape? k = some ids) :
    k.written = k :=
  Kind.written_of (P := fun k => (Grammar.atomShape? k).isSome) (by simp [found]) rfl rfl

theorem written_of_ofShorthand? (found : Container.ofShorthand? k = some container) :
    k.written = k :=
  Kind.written_of (P := fun k => (Container.ofShorthand? k).isSome) (by simp [found]) rfl rfl

end Leaf

/-- Where a phrase stands: what may begin with a term where an operand is awaited, and types within
a list of types. -/
def Phrase.Fits (before ts after : List Token) : {y : Yield} → Phrase y → Prop
  | _, statement | _, plain | _, statements _ | _, block _ | _, body | _, sections
  | _, expression .. | _, inline _ | _, chain _ | _, term _ | _, entries _ | _, key _ | _, item ..
  | _, items .. | _, funcBody _ | _, members | _, memberBlock => Awaits before
  | _, type | _, types => WithinTypes before ts after
  | _, _ => True

open Accounts

/-- A phrase yields its tokens in their order. -/
theorem Derives.accounts {y : Yield} {p : Phrase y} {ts : List Token} {next : Token} {r : y.Result}
    (derives : Derives p ts next r) {before after : List Token} (fits : p.Fits before ts after) :
    Accounts after before (y.reading r) ts := by
  induction derives generalizing before after with
  | plain _ semi inner =>
    simpa using ((inner fits).append (drop semi rfl .nil) : Accounts after before _ _)
  | conditional branches keyword inner =>
    obtain ⟨_, _, _, _, _, _, starts, -, same⟩ := branches.exists_branch
    cases starts
    simp only at same
    subst same
    simpa using (inner trivial : Accounts after before _ _)
  | loop keyword opens _ few closes arrow _ _ sections body otherwise =>
    have inner : Accounts after before _ _ :=
      (carry keyword rfl (drop opens rfl (sections (.of_kind opens rfl)))).append
        ((drop closes rfl (drop arrow rfl (body (.of_kind arrow rfl)))).append (otherwise trivial))
    rw [Yield.reading, reading_ahead (fun _ => by
      unfold Shape.ofSections; split <;> rfl), Grammar.children_ofSections few]
    simpa using inner
  | switch keyword _ arrow opens _ closes _ subject cases otherwise =>
    have inner : Accounts after before _ _ := (carry keyword rfl (subject trivial)).append
      ((drop arrow rfl (drop opens rfl (cases trivial))).append
        (drop closes rfl (otherwise trivial)))
    simpa using inner
  | guarded keyword _ _ _ body catches otherwise =>
    have inner : Accounts after before _ _ := (carry keyword rfl (body trivial)).append
      ((catches trivial).append (otherwise trivial))
    simpa using inner
  | returned keyword _ value | deferred keyword _ value =>
    simpa using (carry keyword rfl (value (.of_kind keyword rfl)) : Accounts after before _ _)
  | word member =>
    simp only [wordShapes, List.mem_cons, Prod.mk.injEq, List.not_mem_nil, or_false] at member
    rcases member with ⟨kind, rfl⟩ | ⟨kind, rfl⟩ | ⟨kind, rfl⟩ <;>
      simpa using (carry kind rfl .nil : Accounts after before _ _)
  | nothing | noStatements | noOtherwise | noCases | noCatches | empty | noStep
  | noOthers | noEdges | noEntries | noItems | noMembers =>
    simpa using (.nil : Accounts after before _ _)
  | expressionStatement _ inner | block _ inner | singleBody _ inner | lastSection _ inner
  | declared _ inner | first _ inner | valueKey _ inner | expressionItem _ inner
  | lastItem _ inner | valueFunc _ inner | memberBlock _ inner | lastType _ inner =>
    simpa using inner fits
  | bindingStatement _ inner | bracedBody _ inner | lastBranch _ inner | bare _ inner
  | simple _ inner | grouped _ inner | container _ inner | nameProperty _ inner
  | groupProperty _ inner | nameItem _ inner | parameterItem _ inner | bracedFunc _ inner
  | lastInstance _ inner | nameInstance _ inner | nameKey _ inner =>
    simpa using (inner trivial : Accounts after before _ _)
  | moreStatements statement _ first rest | moreMembers statement _ _ first rest =>
    simpa using ((first fits).append (rest (.statement statement)) : Accounts after before _ _)
  | emptyBraces token | emptyMembers token =>
    simpa using (drop token rfl .nil : Accounts after before _ _)
  | braces opens _ closes inner | memberBraces opens _ closes inner | group opens _ closes inner =>
    have inner : Accounts after before _ _ :=
      drop opens rfl ((inner (.of_kind opens rfl)).append (drop closes rfl .nil))
    simpa using inner
  | @typeList ts closer _ opener next opens types closes inner =>
    have whole : Derives .typeList _ next _ := .typeList opens types closes
    have within : WithinTypes before (opener :: (ts ++ [closer])) after := .of_typeList whole
    have last := lose (.typeMark (by simp [closes]) within.tail.back) .nil
    have inner := (inner within.tail.front).append last
    simpa using lose (.typeMark (by simp [opens]) within.head) inner
  | otherwise keyword arrow _ body =>
    have inner : Accounts after before _ _ :=
      drop keyword rfl (drop arrow rfl (body (.of_kind arrow rfl)))
    simpa using inner
  | branch keyword _ arrow _ condition body =>
    have inner : Accounts after before _ _ := (carry keyword rfl (condition trivial)).append
      (drop arrow rfl (body (.of_kind arrow rfl)))
    simpa using inner
  | elseBranch _ keyword arrow _ first last =>
    have inner : Accounts after before _ _ := (first trivial).append
      (drop keyword rfl (drop arrow rfl (last (.of_kind arrow rfl))))
    simpa using inner
  | moreBranches _ keyword _ first rest =>
    have inner : Accounts after before _ _ :=
      (first trivial).append (drop keyword rfl (rest trivial))
    simpa using inner
  | moreSections _ mark _ first rest | moreItems _ mark _ first rest
  | lastEntry _ mark _ first rest =>
    have inner : Accounts after before _ _ :=
      (first fits).append (drop mark rfl (rest (.of_kind mark rfl)))
    simpa using inner
  | moreTypes _ mark _ first rest =>
    have inner : Accounts after before _ _ :=
      (first fits.front).append (drop mark rfl (rest fits.back.tail))
    simpa using inner
  | moreInstances _ comma _ first rest =>
    have inner : Accounts after before _ _ :=
      (first trivial).append (drop comma rfl (rest trivial))
    simpa using inner
  | instanceComma _ comma _ first =>
    simpa using ((first trivial).append (drop comma rfl .nil) : Accounts after before _ _)
  | moreEntries _ colon _ comma _ key value rest =>
    have inner : Accounts after before _ _ := (key fits).append
      ((drop colon rfl (value (.of_kind colon rfl))).append
        (drop comma rfl (rest (.of_kind comma rfl))))
    simpa using inner
  | valueCase keyword _ colon _ _ value body rest =>
    have inner : Accounts after before _ _ :=
      ((carry keyword rfl (value (.of_kind keyword rfl))).append
        (drop colon rfl (body (.of_kind colon rfl)))).append (rest trivial)
    simpa using inner
  | defaultCase keyword colon _ _ body rest =>
    have inner : Accounts after before _ _ :=
      (carry keyword rfl (drop colon rfl (body (.of_kind colon rfl)))).append (rest trivial)
    simpa using inner
  | moreCatches keyword _ _ _ declaration body rest =>
    have inner : Accounts after before _ _ :=
      ((carry keyword rfl (declaration trivial)).append (body trivial)).append (rest trivial)
    simpa using inner
  | modifiers all =>
    exact carry_all fun m member => Kind.written_of (all m member) rfl rfl
  | typed mark _ name _ modifiers types =>
    have inner : Accounts after before _ _ :=
      ((carry_option mark rfl).append (modifiers trivial)).append (carry name rfl (types trivial))
    simpa using inner
  | untyped mark _ name modifiers =>
    have inner : Accounts after before _ _ :=
      ((carry_option mark rfl).append (modifiers trivial)).append (carry name rfl .nil)
    simpa using inner
  | access mark _ operand =>
    simpa using ((drop_option mark rfl).append (operand trivial) : Accounts after before _ _)
  | bound _ assigns _ target value =>
    have inner : Accounts after before _ _ := (target trivial).append
      (carry rfl (Kind.written_of assigns rfl rfl) (value (.of_assigner assigns)))
    simpa [Tree.ofAssignment] using inner
  | assigned _ assigns _ target value | declaredAssigned _ assigns _ target value =>
    have inner : Accounts after before _ _ := (target fits).append
      (carry rfl (Kind.written_of assigns rfl rfl) (value (.of_assigner assigns)))
    simpa [Tree.ofAssignment] using inner
  | settled _ _ chain => simpa using chain fits
  | inline _ _ _ _ name types =>
    simpa using ((name fits).append (types trivial) : Accounts after before _ _)
  | binary _ joins _ left right =>
    have own := Kind.written_of (isBinaryOperator_of_joinsOperands joins) rfl rfl
    have inner : Accounts after before _ _ :=
      (left fits).append (carry rfl own (right (.of_joint joins)))
    simpa using inner
  | ternary _ op _ _ colon _ left center right =>
    have inner : Accounts after before _ _ :=
      ((left fits).append (carry op rfl (center (.of_kind op rfl)))).append
        (drop colon rfl (right (.of_kind colon rfl)))
    simpa using inner
  | pointer star _ operand =>
    have inner : Accounts after before _ _ :=
      keep (Token.written_point star) (operand (.of_kind star rfl))
    simpa using inner
  | leading leads _ operand =>
    have own := Kind.written_of (List.contains_iff_mem.mpr leads) rfl rfl
    simpa using (carry rfl own (operand (.leading leads fits)) : Accounts after before _ _)
  | plus op term operand =>
    have sign := Lost.sign op fits ⟨_, _, _, _, List.prefix_append _ after, term⟩
    exact lose sign (operand (.of_kind op rfl))
  | func keyword opens _ closes arrow _ params body =>
    have inner : Accounts after before _ _ :=
      (carry keyword rfl (drop opens rfl (params (.of_kind opens rfl)))).append
        (drop closes rfl (drop arrow rfl (body (.of_kind arrow rfl))))
    simpa using inner
  | record keyword _ _ heritage body =>
    have inner : Accounts after before _ _ :=
      (carry rfl (Kind.written_of_or keyword rfl rfl) (heritage trivial)).append (body trivial)
    unfold Shape.ofRecord
    split <;> simpa using inner
  | interface keyword opens _ closes arrow _ supers body =>
    have inner : Accounts after before _ _ :=
      (carry keyword rfl (drop opens rfl (supers (.of_kind opens rfl)))).append
        (drop closes rfl (drop arrow rfl (body trivial)))
    simpa using inner
  | enumeration keyword _ opens _ semi _ closes heritage instances body =>
    have inner : Accounts after before _ _ :=
      ((carry keyword rfl (heritage trivial)).append (drop opens rfl (instances trivial))).append
        ((drop semi rfl (body (.of_kind semi rfl))).append (drop closes rfl .nil))
    simpa using inner
  | atom found =>
    simpa [reading_leaf (leaf_of_atomShape? found)] using
      (carry rfl (written_of_atomShape? found) .nil : Accounts after before _ _)
  | index _ opens _ closes target place =>
    have inner : Accounts after before _ _ := (target trivial).append
      ((carry opens rfl (place (.of_kind opens rfl))).append (drop closes rfl .nil))
    simpa using inner
  | slice _ opens _ colon _ _ closes target first last step =>
    have inner : Accounts after before _ _ := (target trivial).append
      ((carry opens rfl (first (.of_kind opens rfl))).append
        ((drop colon rfl (last (.of_kind colon rfl))).append
          ((step trivial).append (drop closes rfl .nil))))
    simpa using inner
  | get _ dot _ target property =>
    have inner : Accounts after before _ _ := (target trivial).append
      (carry rfl (Kind.written_of_or dot rfl rfl) (property trivial))
    simpa using inner
  | call _ opens _ closes target args | callInstance _ opens _ closes target args =>
    have inner : Accounts after before _ _ := (target trivial).append
      ((carry opens rfl (args (.of_kind opens rfl))).append (drop closes rfl .nil))
    simpa using inner
  | trailing _ trails operand =>
    have own := Kind.written_of (List.contains_iff_mem.mpr trails) rfl rfl
    simpa using ((operand trivial).append (carry rfl own .nil) : Accounts after before _ _)
  | deref _ mark operand =>
    have inner : Accounts after before _ _ :=
      (operand trivial).append (keep (Token.written_deref mark) .nil)
    simpa using inner
  | rounding _ round found operand =>
    have inner : Accounts after before _ _ := (operand trivial).append
      (carry round rfl (carry rfl (written_of_atomShape? found) .nil))
    simpa [reading_leaf (leaf_of_atomShape? found)] using inner
  | name var => simpa using (carry var rfl .nil : Accounts after before _ _)
  | step colon _ value =>
    simpa using (drop colon rfl (value (.of_kind colon rfl)) : Accounts after before _ _)
  | shorthand found same =>
    simpa [reading_leaf (leaf_of_emptyShape same)] using
      (carry rfl (written_of_ofShorthand? found) .nil : Accounts after before _ _)
  | emptyList opens closes =>
    have inner : Accounts after before _ _ :=
      carry rfl (Kind.written_of_or opens rfl rfl) (drop closes rfl .nil)
    unfold Shape.ofList
    split <;> simpa using inner
  | list opens _ _ closes first rest =>
    have inner : Accounts after before _ _ :=
      (carry rfl (Kind.written_of_or opens rfl rfl) (first (.of_either opens rfl rfl))).append
        ((rest trivial).append (drop closes rfl .nil))
    unfold Shape.ofList
    split <;> simpa using inner
  | range opens _ arrow _ _ closes first last step =>
    have inner : Accounts after before _ _ :=
      (carry rfl (Kind.written_of_or opens rfl rfl) (first (.of_either opens rfl rfl))).append
        ((drop arrow rfl (last (.of_kind arrow rfl))).append
          ((step trivial).append (drop closes rfl .nil)))
    unfold Shape.ofRange
    split <;> simpa using inner
  | others mark _ items | edges mark _ items =>
    simpa using (drop mark rfl (items (.of_kind mark rfl)) : Accounts after before _ _)
  | set opens _ closes items =>
    have inner : Accounts after before _ _ :=
      carry opens rfl ((items (.of_kind opens rfl)).append (drop closes rfl .nil))
    simpa using inner
  | map opens _ _ closes entries =>
    have inner : Accounts after before _ _ :=
      carry opens rfl ((entries (.of_kind opens rfl)).append (drop closes rfl .nil))
    unfold Shape.ofEntries
    split <;> simpa using inner
  | undirectedGraph opens _ _ closes nodes edges | directedGraph opens _ _ closes nodes edges =>
    have inner : Accounts after before _ _ :=
      (carry opens rfl (nodes (.of_kind opens rfl))).append
        ((edges trivial).append (drop closes rfl .nil))
    simpa [Shape.ofGraph] using inner
  | edge _ mark _ left right =>
    have either := mark.imp_right And.right
    have inner : Accounts after before _ _ := (left fits).append
      (carry rfl (Kind.written_of_or either rfl rfl) (right (.of_either either rfl rfl)))
    unfold Shape.ofEdge
    split <;> simpa using inner
  | heritage opens _ closes arrow names =>
    have inner : Accounts after before _ _ := drop opens rfl
      ((names (.of_kind opens rfl)).append (drop closes rfl (drop arrow rfl .nil)))
    simpa using inner
  | heritageOfBoth opens _ colon _ closes arrow supers interfaces =>
    have inner : Accounts after before _ _ :=
      (drop opens rfl (supers (.of_kind opens rfl))).append
        (drop colon rfl ((interfaces (.of_kind colon rfl)).append
          (drop closes rfl (drop arrow rfl .nil))))
    simpa using inner
  | namedType star names =>
    have inner : Accounts after before _ _ :=
      (drop_star star fits).append (carry rfl (Kind.written_of names rfl rfl) .nil)
    simpa using inner
  | shorthandType star found =>
    have inner : Accounts after before _ _ :=
      (drop_star star fits).append (carry rfl (written_of_ofShorthand? found) .nil)
    simpa using inner
  | @containerType container _ _ _ _ _ _ star opens _ closes types =>
    have opens := opener_of_ofOpener? opens
    have whole : WithinTypes before _ after := fits
    rw [List.append_assoc] at whole
    have inner : Accounts after before _ _ := (drop_star star whole).append
      ((carry opens (by cases container <;> rfl) (types fits.front.back.tail)).append
        (drop closes (by cases container <;> rfl) .nil))
    simpa using inner

end ScriptSyntax
