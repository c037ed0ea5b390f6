import ScriptSyntax.Proofs.Program.Spanning
import ScriptSyntax.Proofs.Schema.Derived

/-! The layers of an accepted program and the forms of its nodes. Statements stand in blocks and not
inside expressions, and each node holds what its shape asks for. -/
namespace ScriptSyntax

/-- Whether the tree under the root is a block, and each node of it stands where its layer may. -/
def Arena.Layered (a : Arena) : Prop :=
  ∃ t, a.root = some t.id ∧ a.Holds t ∧ t.shape.stratum = .block ∧ ∀ n ∈ t.nodes, n.WellPlaced

/-- Whether every node of the tree under the root has the form that its shape asks for. -/
def Arena.Formed (a : Arena) : Prop :=
  ∃ t, a.root = some t.id ∧ a.Holds t ∧ ∀ n ∈ t.nodes, n.WellFormed

/-- The tree of an accepted program is a block of which all nodes conform. -/
theorem Accepted.conforms {source : String} {file : Option String} {ts : List Token} {last : Token}
    {b : Arena} {t : Tree} (program : Accepted source file ts last b t) :
    t.shape.stratum = .block ∧ ∀ n ∈ t.nodes, n.Conforms := by
  obtain ⟨fits, conform⟩ := List.forall_mem_singleton.mp program.derives.placed
  exact ⟨of_decide_eq_true fits, conform⟩

variable {source : String} {file : Option String} {a : Arena}

theorem parse_layered (accepted : parse source file = .ok a) : a.Layered := by
  obtain ⟨ts, last, b, t, program, rfl⟩ := parse_accepted accepted
  obtain ⟨block, conform⟩ := program.conforms
  refine ⟨t, rfl, program.forest.holds_setRoot, block, ?_⟩
  intro n inside
  exact (conform n inside).placed

/-- The header of the loop holds an assignment and two expressions, its body two statements. -/
theorem parse_layered_loop : ∃ a, parse
    "loop (i = 0 : i < n : i++) => \x7b f = func(x<int> = 1) => x ? y : z; break; \x7d" none =
      .ok a ∧
    (a.root = some 24 ∧ a.shape? 24 = some (.block [23]) ∧
      a.shape? 23 = some (.loop [2] [5] [7] 22 none) ∧ a.shape? 22 = some (.block [20, 21]) ∧
      a.shape? 20 = some (.assignment 8 19 false) ∧ a.shape? 19 = some (.func [12] 18) ∧
      a.shape? 21 = some .breakStep) ∧
    a.Layered :=
  exists_parse (by decide +kernel) fun _ => parse_layered

theorem parse_formed (accepted : parse source file = .ok a) : a.Formed := by
  obtain ⟨ts, last, b, t, program, rfl⟩ := parse_accepted accepted
  obtain ⟨-, conform⟩ := program.conforms
  refine ⟨t, rfl, program.forest.holds_setRoot, ?_⟩
  intro n inside
  exact (conform n inside).formed

/-- A graph of two nodes with an edge and one that goes both ways, and a class with a declaration
and an assignment of a map. -/
theorem parse_formed_graph : ∃ a, parse
    "g = *-> a, b; a -> b, b <-> a <-*; C = class() => \x7b m<int>; n = \x7bk: g?.v\x7d; \x7d;"
      none = .ok a ∧
    (a.root = some 24 ∧ a.shape? 24 = some (.block [10, 23]) ∧
      a.shape? 10 = some (.assignment 0 9 false) ∧
      a.shape? 9 = some (.directedGraph [1, 2] [5, 8]) ∧
      a.shape? 5 = some (.directedEdge 3 4 false) ∧ a.shape? 8 = some (.directedEdge 6 7 true) ∧
      a.shape? 23 = some (.assignment 11 22 false) ∧ a.shape? 22 = some (.classDef [] [] 21) ∧
      a.shape? 21 = some (.block [13, 20]) ∧ a.shape? 19 = some (.objectMap [(15, 18)]) ∧
      a.shape? 18 = some (.get 16 17 true)) ∧
    a.Formed :=
  exists_parse (by decide +kernel) fun _ => parse_formed

end ScriptSyntax
