import ScriptSyntax.Proofs.Grouping.Place
import ScriptSyntax.Proofs.Grouping.Settled

/-! Regrouping once more what has been regrouped. -/
namespace ScriptSyntax.Arena

variable {a b : Arena} {t : Tree} {r : NodeId}

theorem eq_of_node? (nodes : ∀ i, b.node? i = a.node? i) (root : b.root = a.root) : b = a := by
  obtain ⟨nodes', root'⟩ := b
  obtain rfl : root' = a.root := root
  have same : nodes' = a.nodes := Array.ext_getElem? nodes
  rw [same]

/-- Where the tree that is held does not change, neither does the arena. -/
theorem Rewires.eq_self (rewires : a.Rewires b t.id t.id) (before : a.Holds t)
    (after : b.Holds t) : b = a := by
  apply eq_of_node?
  · intro i
    by_cases inside : i ∈ t.ids
    · have parent : b.parent? i = a.parent? i := by
        by_cases top : i = t.id
        · subst top
          cases under : a.parent? t.id with
          | none => exact rewires.loose under
          | some p => exact (rewires.slot p under).1
        · obtain ⟨h, member, c, child, rfl⟩ := Tree.exists_holder inside top
          rw [(after h member).adopted c child, (before h member).adopted c child]
      rw [before.node?_eq after inside, parent]
      cases stored : a.node? i <;> simp [Arena.parent?, stored]
    · rw [before.mem_ids_iff] at inside
      by_cases above : a.parent? t.id = some i
      · simp [(rewires.slot i above).2, Shape.replace_self]
      · exact rewires.outside i inside above
  · rw [rewires.root]
    split
    · next root => exact root.2.symm
    · rfl

/-- Regrouping at what took the place of the chain changes nothing, whichever operators are finished
expressions. -/
theorem WellLinked.regroup_again (linked : a.WellLinked) (r : NodeId) :
    ((a.regroup r).2.1.regroup (a.regroup r).1).1 = (a.regroup r).1 ∧
      ((a.regroup r).2.1.regroup (a.regroup r).1).2.1 = (a.regroup r).2.1 := by
  cases ranked : a.rank? r with
  | none => simp [regroup_of_rank?_none ranked]
  | some rank =>
    obtain ⟨t, held, rfl⟩ := linked.exists_tree (lt_size_of_rank? ranked)
    have regroups := linked.regroups held
    have linked' := regroups.wellLinked linked held
    have again := linked'.regroups regroups.held
    have top := again.top
    have after := again.held
    have rewires := linked'.regroup_rewires t.grouped.id
    rw [Tree.grouped_grouped] at top after
    rw [top] at rewires
    rw [regroups.top]
    exact ⟨top, rewires.eq_self regroups.held after⟩

/-- Only the last operator of a chain may be a finished expression. -/
theorem regroup_again_frozen : (sumUnderProduct.freeze 4).WellLinked ∧
    ((sumUnderProduct.freeze 4).regroup 4).1 = 2 ∧
    (((sumUnderProduct.freeze 4).regroup 4).2.1.regroup 2).2.1 =
      ((sumUnderProduct.freeze 4).regroup 4).2.1 := by
  have linked : (sumUnderProduct.freeze 4).WellLinked :=
    wellLinked_of_older (by decide) (by decide) (by decide)
  have top : ((sumUnderProduct.freeze 4).regroup 4).1 = 2 := by decide
  have again := (linked.regroup_again 4).2
  rw [top] at again
  exact ⟨linked, top, again⟩

end ScriptSyntax.Arena
