import ScriptSyntax.Proofs.Record.Plain

/-! The children of a node as they are listed, as they are replaced and as they are written. The
slots that are visited one by one to replace a child are the slots of the list, and the records that
lie directly in the external form of a node are those of its children, in the order of the list. -/
namespace ScriptSyntax

namespace Value

/-- Whether the fields are those of a node. A type is a record too, but its tag is none of these. -/
def isNode : List (String × Value) → Bool
  | (name, text tag) :: _ => name = "type" && Shape.tags.contains tag
  | _ => false

mutual

/-- The records of nodes in a value that lie in no other record of a node, in their order. -/
def outermost : Value → List Value
  | record fields => if isNode fields then [record fields] else outermostFields fields
  | list items => outermostAll items
  | null | flag _ | number _ | text _ => []

def outermostAll : List Value → List Value
  | [] => []
  | v :: vs => outermost v ++ outermostAll vs

def outermostFields : List (String × Value) → List Value
  | [] => []
  | (_, v) :: fields => outermost v ++ outermostFields fields

end

/-- The records of nodes that lie directly in a record. -/
def nested : Value → List Value
  | record fields => outermostFields fields
  | _ => []

theorem outermostAll_eq (vs : List Value) : outermostAll vs = vs.flatMap outermost := by
  induction vs with
  | nil => rfl
  | cons v vs ih => rw [outermostAll, ih, List.flatMap_cons]

theorem outermostFields_eq (fields : List (String × Value)) :
    outermostFields fields = fields.flatMap fun f => f.2.outermost := by
  induction fields with
  | nil => rfl
  | cons f fields ih => rw [outermostFields, ih, List.flatMap_cons]

end Value

open Value

namespace TypeTerm

mutual

/-- No node lies in a type. -/
theorem outermost_record : (t : TypeTerm) → t.record.outermost = []
  | named .. => by simp [record, outermost, outermostFields, isNode, Shape.tags]
  | container _ _ _ elements => by
    simp [record, outermost, outermostFields, isNode, Shape.tags, outermostAll_recordAll elements]

theorem outermostAll_recordAll : (ts : List TypeTerm) → outermostAll (recordAll ts) = []
  | [] => rfl
  | t :: ts => by
    rw [recordAll, outermostAll, outermost_record t, outermostAll_recordAll ts, List.append_nil]

end

end TypeTerm

variable {α : Type} {child : α → Value}

namespace Field

/-- The children in a field, in their order. -/
def slots : Field α → List α
  | one a => [a]
  | optional a => a.toList
  | many as => as
  | pairs entries => entries.flatMap fun p => [p.1, p.2]
  | flag _ | text _ | tokens _ | types _ => []

theorem outermost_value (f : Field α) (written : ∀ a ∈ f.slots, (child a).outermost = [child a]) :
    (f.value child).outermost = f.slots.map child := by
  cases f with
  | one a => simpa [slots] using written
  | optional a => cases a <;> simp_all [slots, outermost]
  | many as =>
    rw [value_many, outermost, outermostAll_eq, List.flatMap_map, slots, List.map_eq_flatMap]
    exact List.flatMap_congr written
  | pairs entries =>
    have entry (k v : Value) :
        (Value.record [("key", k), ("value", v)]).outermost = k.outermost ++ v.outermost := by
      have other : isNode [("key", k), ("value", v)] = false := by cases k <;> rfl
      simp [outermost, outermostFields, other]
    rw [value_pairs, outermost, outermostAll_eq, List.flatMap_map, slots, List.map_flatMap]
    refine List.flatMap_congr fun p member => ?_
    have both := List.forall_mem_flatMap.mp written p member
    simp [entry, both p.1, both p.2]
  | flag b => rfl
  | text s => rfl
  | tokens ts =>
    rw [value_tokens, outermost, outermostAll_eq, List.flatMap_map, slots]
    simp [outermost]
  | types ts => exact TypeTerm.outermostAll_recordAll ts

end Field

namespace Shape

/-- The fields hold the children in the order of the slots. -/
theorem slots_fields (s : Shape α) : s.fields.flatMap (fun f => f.2.slots) = s.children := by
  cases s <;> simp [fields, Field.slots, children]

/-- In the external form of a node the forms of its children lie next below. -/
theorem nested_record (s : Shape α) (k : Option Token)
    (written : ∀ a ∈ s.children, (child a).outermost = [child a]) :
    (s.record child k).nested = s.children.map child := by
  have token : (k.elim Value.null fun t => .text t.text).outermost = [] := by
    cases k <;> rfl
  rw [record, nested, outermostFields, outermostFields, token, outermostFields_eq,
    List.flatMap_map, outermost, List.nil_append, List.nil_append, ← slots_fields,
    List.map_flatMap]
  rw [← slots_fields] at written
  exact List.flatMap_congr fun f member =>
    f.2.outermost_value (List.forall_mem_flatMap.mp written f member)

theorem outermost_record (s : Shape α) (k : Option Token) :
    (s.record child k).outermost = [s.record child k] := by
  have listed : s.tag ∈ tags := List.mem_of_getElem? s.getElem?_tags
  rw [record, outermost, if_pos (by simpa [isNode] using listed)]

end Shape

namespace Arena

variable {a : Arena} {i : NodeId} {depth : Nat}

theorem EndsWithin.outermost_recordWithin (ends : a.EndsWithin depth i) :
    (a.recordWithin depth i).outermost = [a.recordWithin depth i] := by
  cases depth with
  | zero => exact ends.elim
  | succ depth =>
    obtain ⟨n, stored, -⟩ := ends
    rw [recordWithin, stored]
    exact n.shape.outermost_record n.token

theorem IsAcyclic.nested_nodeRecord (acyclic : a.IsAcyclic) (bound : i < a.size) :
    (a.nodeRecord i).nested = (a.children i).map a.nodeRecord := by
  -- One step of the descent is spent on the node, and the children are as deep as they were.
  have ends := (acyclic.endsWithin bound).succ
  obtain ⟨n, stored, below⟩ := ends
  have children : a.children i = n.shape.children := by
    simp [Arena.children, shape?, stored]
  rw [nodeRecord, ← (acyclic.endsWithin bound).recordWithin_succ, recordWithin, stored, children]
  exact n.shape.nested_record n.token fun c child => (below c child).outermost_recordWithin

/-- The views of the children of a node agree. A child is replaced in just the slots that are
listed, the answer tells whether it was in one, and nothing but the contents of slots changes. The
records of nodes that lie directly in the external form of a node are those of its children. -/
theorem views_of_children :
    (∀ (α : Type) [DecidableEq α] (s : Shape α) (old new : α),
      ((s.replaceChild old new).1 = true ↔ old ∈ s.children) ∧
      (s.replaceChild old new).2.map (fun _ => ()) = s.map (fun _ => ()) ∧
      (s.replaceChild old new).2.children =
        s.children.map fun a => if a = old then new else a) ∧
    ∀ (a : Arena) (i : NodeId), a.IsAcyclic → i < a.size →
      (a.nodeRecord i).nested = (a.children i).map a.nodeRecord := by
  refine ⟨fun α _ s old new => ?_, fun a i => IsAcyclic.nested_nodeRecord⟩
  rw [Shape.replaceChild_eq]
  exact ⟨decide_eq_true_iff, s.map_map .., s.children_map _⟩

/-- The product holds the sum and the last operand, and so does its external form. -/
theorem views_of_children_product : sumUnderProduct.IsAcyclic ∧
    (sumUnderProduct.nodeRecord 4).nested =
      [sumUnderProduct.nodeRecord 2, sumUnderProduct.nodeRecord 3] := by
  have acyclic := wellLinked_sumUnderProduct.isAcyclic
  exact ⟨acyclic, views_of_children.2 _ 4 acyclic (by decide)⟩

end Arena
end ScriptSyntax
