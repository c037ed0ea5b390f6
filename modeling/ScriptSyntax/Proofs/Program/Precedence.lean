import ScriptSyntax.Proofs.Precedence.Derived
import ScriptSyntax.Proofs.Program.Spanning

/-! The operators of an accepted program stand as their ranks and its parentheses ask. -/
namespace ScriptSyntax

/-- Whether every node of the tree under the root obeys precedence among the tokens. -/
def Arena.Obeys (a : Arena) (tokens : List Token) : Prop :=
  ∃ t, a.root = some t.id ∧ a.Holds t ∧ ∀ p ∈ t.nodes, p.Obeys tokens

variable {source : String} {file : Option String} {a : Arena}

theorem parse_obeys (accepted : parse source file = .ok a) :
    ∃ tokens, tokenize source file = .ok tokens ∧ tokens.Nodup ∧ a.Obeys tokens := by
  obtain ⟨ts, last, b, t, program, rfl⟩ := parse_accepted accepted
  have keeps : Keeps (ts ++ [last]) [t] := by
    simpa using program.derives.keeps.before last
  exact ⟨_, program.tokens, program.nodup, t, rfl, program.forest.holds_setRoot,
    keeps program.nodup t (List.mem_singleton_self t)⟩

/-- The sum in parentheses is the left operand of the product, and the difference is the condition
of the choice. -/
theorem parse_obeys_sum : ∃ a, parse "x = (a + b) * c - d ? e : f;" none = .ok a ∧
    (a.root = some 12 ∧ a.shape? 12 = some (.block [11]) ∧
      a.shape? 11 = some (.assignment 0 10 false) ∧ a.shape? 10 = some (.ternaryOp 7 8 9) ∧
      a.shape? 7 = some (.binaryOp 5 6) ∧ a.shape? 5 = some (.binaryOp 3 4) ∧
      a.shape? 3 = some (.binaryOp 1 2)) ∧
    ∃ tokens, tokenize "x = (a + b) * c - d ? e : f;" none = .ok tokens ∧ tokens.Nodup ∧
      a.Obeys tokens :=
  exists_parse (by decide +kernel) fun _ => parse_obeys

end ScriptSyntax
