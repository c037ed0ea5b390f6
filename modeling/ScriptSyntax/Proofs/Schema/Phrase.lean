import ScriptSyntax.Proofs.Derivation.Derives
import ScriptSyntax.Proofs.Schema.Form

/-! What the form of a node asks of its children is told by the phrases that yield them. -/
namespace ScriptSyntax

/-- What is known of an item by its sort. -/
def Item.Yields : Item → Tree → Prop
  | edge false, t => t.IsEdge
  | edge true, t => t.IsDirectedEdge
  | _, _ => True

/-- What is known of the trees and types that a phrase yields, by the phrase alone. -/
def Phrase.Forms : {y : Yield} → Phrase y → y.Result → Prop
  | _, .branches, r => r.1 ≠ []
  | _, .declaration typed, t => typed = true → t.IsTypedDeclaration
  | _, .name, t => t.IsVariable
  | _, .key named, t => named = true → t.IsVariable
  | _, .entries named, ps => named = true → ∀ p ∈ ps, p.1.IsVariable
  | _, .item _ sort, t => sort.Yields t
  | _, .items _ sort, ts => ∀ t ∈ ts, sort.Yields t
  | _, .edges directed, ts => ∀ t ∈ ts, (Item.edge directed).Yields t
  | _, .members, ts => ∀ t ∈ ts, t.IsMember
  | _, .memberBlock, t | _, .memberBody, t => t.IsMemberBlock
  | _, .instances, ts => ts ≠ [] ∧ ∀ t ∈ ts, t.IsInstance
  | _, .instanceTerm, t => t.IsInstance
  | _, .types, ts | _, .typeList, ts => ts ≠ []
  | _, _, _ => True

namespace Tree

theorem isMember_of_shape {t : Tree} (member : t.shape.isMember = true) : t.IsMember := by
  unfold Shape.isMember at member
  split at member
  · next target value cast same => exact .inl ⟨target, value, cast, same⟩
  · next modifiers name types same =>
    exact .inr ⟨modifiers, name, types, same, by simpa using member⟩
  · contradiction

theorem isVariable_ofName {i : NodeId} {name : Token} (var : name.kind = .var) :
    (ofName i name).IsVariable :=
  ⟨rfl, congrArg some var⟩

/-- An edge is of the sort that its graph asks for. -/
theorem yields_edge {directed : Bool} {i : NodeId} {mark : Token} {left right : Tree} {f : Bool}
    (points : mark.kind = .dir2Edge ∨ directed = true ∧ mark.kind = .dirEdge) :
    (Item.edge directed).Yields
      (.node i (.ofEdge directed mark.kind left right) (some mark) f) := by
  cases directed with
  | false =>
    have both : mark.kind = .dir2Edge := by simpa using points
    exact ⟨left, right, rfl, congrArg some both⟩
  | true =>
    refine ⟨left, right, mark.kind = .dir2Edge, rfl, ?_⟩
    rcases points with both | ⟨-, one⟩
    · exact .inl ⟨decide_eq_true both, congrArg some both⟩
    · exact .inr ⟨by rw [one]; rfl, congrArg some one⟩

end Tree

open ScriptSyntax.Tree

theorem Derives.forms {y : Yield} {p : Phrase y} {ts : List Token} {next : Token} {r : y.Result}
    (derives : Derives p ts next r) : p.Forms r := by
  induction derives with
  | lastBranch | elseBranch | moreBranches => exact List.cons_ne_nil _ _
  | typed _ _ _ _ _ types => exact fun _ => ⟨_, _, _, rfl, types⟩
  | name var => exact isVariable_ofName var
  | nameKey _ inner => exact fun _ => inner
  | noEntries | noItems | noEdges | noMembers => simp [Phrase.Forms]
  | lastEntry _ _ _ key => exact fun named => List.forall_mem_singleton.mpr (key named)
  | moreEntries _ _ _ _ _ key _ rest =>
    exact fun named => List.forall_mem_cons.mpr ⟨key named, rest named⟩
  | edge _ points => exact yields_edge points
  | lastItem _ inner => exact List.forall_mem_singleton.mpr inner
  | moreItems _ _ _ first rest => exact List.forall_mem_cons.mpr ⟨first, rest⟩
  | edges _ _ inner => exact inner
  | moreMembers _ member _ _ rest =>
    exact List.forall_mem_cons.mpr ⟨isMember_of_shape member, rest⟩
  | memberBlock _ inner => exact ⟨_, rfl, inner⟩
  | emptyMembers => exact ⟨[], rfl, by simp⟩
  | memberBraces _ _ _ inner => exact inner
  | lastInstance _ inner | instanceComma _ _ _ inner =>
    exact ⟨List.cons_ne_nil _ _, List.forall_mem_singleton.mpr inner⟩
  | moreInstances _ _ _ first rest =>
    exact ⟨List.cons_ne_nil _ _, List.forall_mem_cons.mpr ⟨first, rest.2⟩⟩
  | nameInstance _ inner => exact .inl inner
  | callInstance _ _ _ _ target => exact .inr ⟨_, _, rfl, target⟩
  | lastType | moreTypes => exact List.cons_ne_nil _ _
  | typeList _ _ _ inner => exact inner
  | valueKey | untyped | access => exact fun never => by contradiction
  | _ => trivial

end ScriptSyntax
