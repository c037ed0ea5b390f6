import ScriptSyntax.Proofs.Grouping.Reference

/-! The right spine of a tree under construction, from its lowest operator up, and what inserting
the next operator of a chain does to it. The ranks grow tighter downward. What the operators so far
build is at every moment the tree that precedence asks for. -/
namespace ScriptSyntax.Tree

/-- A tree under the operators of a spine. Each of them comes with its left operand. -/
def close : List (Link × Tree) → Tree → Tree
  | [], t => t
  | (l, left) :: above, t => close above (l.join left t)

/-- The operand at the lower end of a spine before more operators are inserted. -/
def lowest (base : Tree) : List (Link × Tree) → Tree
  | [] => base
  | (l, _) :: _ => l.right

/-- The spine after the operators `done` over `base`. Between an operator of the spine and the one
above it those were read that bind no looser than it, and they make its left operand. -/
inductive Spine (base : Tree) : List Link → List (Link × Tree) → Prop where
  | nil : Spine base [] []
  | cons {done between : List Link} {l : Link} {above : List (Link × Tree)}
      (rest : Spine base done above)
      (tighter : ∀ m ∈ between, m.rank ≤ l.rank)
      (looser : ∀ f ∈ above.head?, l.rank < f.1.rank) :
      Spine base (done ++ between ++ [l]) ((l, arrange (lowest base above) between) :: above)

variable {base : Tree} {done : List Link} {spine above : List (Link × Tree)}

/-- Operators below a spine that bind tighter than its lowest one hang under it as a whole. -/
theorem Spine.close_arrange (valid : Spine base done spine) {last : List Link}
    (tighter : ∀ m ∈ last, ∀ f ∈ spine.head?, m.rank < f.1.rank) :
    close spine (arrange (lowest base spine) last) = arrange base (done ++ last) := by
  induction valid generalizing last with
  | nil => rfl
  | @cons done between l above rest ahead looser ih =>
    have behind : ∀ m ∈ last, m.rank < l.rank := fun m member => tighter m member _ rfl
    have inner : ∀ m ∈ between ++ l :: last, ∀ f ∈ above.head?, m.rank < f.1.rank := by
      intro m member f head
      have bound := looser f head
      rcases List.mem_append.mp member with h | h
      · exact Nat.lt_of_le_of_lt (ahead m h) bound
      · rcases List.mem_cons.mp h with rfl | h
        · exact bound
        · exact Nat.lt_trans (behind m h) bound
    have joined := ih inner
    rw [arrange_append _ ahead behind] at joined
    simpa only [close, lowest, List.append_assoc, List.singleton_append] using joined

/-- Dropping the operators that bind no looser than `rank` keeps a spine, of the operators before
some that bind no looser either. -/
theorem Spine.dropWhile (valid : Spine base done spine) (rank : Nat) :
    ∃ kept between, done = kept ++ between ∧ (∀ m ∈ between, m.rank ≤ rank) ∧
      Spine base kept (spine.dropWhile fun f => f.1.rank ≤ rank) := by
  induction valid with
  | nil => exact ⟨[], [], rfl, by simp, .nil⟩
  | @cons done between l above rest ahead looser ih =>
    by_cases tighter : l.rank ≤ rank
    · obtain ⟨kept, inner, rfl, bound, valid⟩ := ih
      refine ⟨kept, inner ++ (between ++ [l]), by simp, fun m member => ?_, ?_⟩
      · rcases List.mem_append.mp member with h | h
        · exact bound m h
        · rcases List.mem_append.mp h with h | h
          · exact Nat.le_trans (ahead m h) tighter
          · rw [List.mem_singleton.mp h]
            exact tighter
      · simpa [List.dropWhile, tighter] using valid
    · refine ⟨done ++ between ++ [l], [], by simp, by simp, ?_⟩
      simpa [List.dropWhile, tighter] using Spine.cons rest ahead looser

theorem looser_head (spine : List (Link × Tree)) (rank : Nat) :
    ∀ f ∈ (spine.dropWhile fun f => f.1.rank ≤ rank).head?, rank < f.1.rank := by
  intro f head
  have stop := List.head?_dropWhile_not (fun f : Link × Tree => f.1.rank ≤ rank) spine
  rw [Option.mem_def.mp head] at stop
  simpa using stop

theorem id_close {l : Link} {left s t : Tree} :
    (close ((l, left) :: above) s).id = (close ((l, left) :: above) t).id := by
  induction above generalizing l left s t with
  | nil => rfl
  | cons f rest ih => exact ih

theorem mem_nodes_close (spine : List (Link × Tree)) (t : Tree) :
    t ∈ (close spine t).nodes := by
  induction spine generalizing t with
  | nil => exact t.self_mem_nodes
  | cons f rest ih =>
    refine child_mem_nodes ?_ (ih (f.1.join f.2 t))
    simp [Link.children_join]

end ScriptSyntax.Tree
