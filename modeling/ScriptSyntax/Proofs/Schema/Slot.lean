import ScriptSyntax.Proofs.Forest.Tree

/-! The layers of a tree. Statements stand in blocks, expressions in all slots that ask for a value,
and the parts of directives and graphs in slots of their own. -/
namespace ScriptSyntax

/-- What a node is for the node that holds it. -/
inductive Stratum where
  | block
  /-- Directives, and the statements that begin with a word of their own. -/
  | step
  | assignment
  | branch
  | caseArm
  | catchArm
  | edge
  | directedEdge
  | expression
deriving DecidableEq

/-- The places that nodes have for others. -/
inductive Slot where
  | statement
  /-- What is executed or declared as a whole: bodies, and what follows an `else`. -/
  | body
  | parameter
  /-- A section of the header of a loop. -/
  | header
  | branch
  | caseArm
  | catchArm
  | edge
  | directedEdge
  | operand
deriving DecidableEq

def Slot.admits : Slot → Stratum → Bool
  | statement, s => [.step, .assignment, .expression].contains s
  | body, s => s = .block
  | parameter, s | header, s => [.assignment, .expression].contains s
  | branch, s => s = .branch
  | caseArm, s => s = .caseArm
  | catchArm, s => s = .catchArm
  | edge, s => s = .edge
  | directedEdge, s => s = .directedEdge
  | operand, s => s = .expression

namespace Shape

variable {α : Type}

def stratum : Shape α → Stratum
  | block _ => .block
  | conditional .. | loop .. | switch .. | guarded .. | returnStep _ | deferStep _ | pass
  | continueStep | breakStep => .step
  | assignment .. => .assignment
  | branch .. => .branch
  | caseArm .. => .caseArm
  | catchArm .. => .catchArm
  | edge .. => .edge
  | directedEdge .. => .directedEdge
  | _ => .expression

/-- The children, each with its place. -/
def slots : Shape α → List (Slot × α)
  | block as => as.map (.statement, ·)
  | func as b => as.map (.parameter, ·) ++ [(.body, b)]
  | classDef as bs c | structDef as bs c =>
    as.map (.operand, ·) ++ bs.map (.operand, ·) ++ [(.body, c)]
  | interfaceDef as b => as.map (.operand, ·) ++ [(.body, b)]
  | enumDef as bs cs d =>
    as.map (.operand, ·) ++ bs.map (.operand, ·) ++ cs.map (.operand, ·) ++ [(.body, d)]
  | conditional as b => as.map (.branch, ·) ++ b.toList.map (.body, ·)
  | branch a b => [(.operand, a), (.body, b)]
  | loop as bs cs d e =>
    as.map (.header, ·) ++ bs.map (.header, ·) ++ cs.map (.header, ·) ++
      (.body, d) :: e.toList.map (.body, ·)
  | switch a bs c => (.operand, a) :: (bs.map (.caseArm, ·) ++ c.toList.map (.body, ·))
  | caseArm a b => a.toList.map (.operand, ·) ++ [(.body, b)]
  | guarded a bs c => (.body, a) :: (bs.map (.catchArm, ·) ++ c.toList.map (.body, ·))
  | catchArm a b => [(.operand, a), (.body, b)]
  | undirectedGraph as bs => as.map (.operand, ·) ++ bs.map (.edge, ·)
  | directedGraph as bs => as.map (.operand, ·) ++ bs.map (.directedEdge, ·)
  | s => s.children.map (.operand, ·)

/-- Every child has a place. -/
theorem map_snd_slots (s : Shape α) : s.slots.map Prod.snd = s.children := by
  cases s <;> simp [slots, children, Function.comp_def]

theorem exists_slot {s : Shape α} {a : α} (child : a ∈ s.children) :
    ∃ slot, (slot, a) ∈ s.slots := by
  rw [← map_snd_slots] at child
  obtain ⟨⟨slot, b⟩, member, rfl⟩ := List.mem_map.mp child
  exact ⟨slot, member⟩

end Shape

/-- Whether each child of the node is of a layer that its place admits. -/
def Tree.WellPlaced (n : Tree) : Prop :=
  ∀ x ∈ n.shape.slots, x.1.admits x.2.shape.stratum = true

end ScriptSyntax
