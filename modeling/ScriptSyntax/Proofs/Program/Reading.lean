import ScriptSyntax.Proofs.Program.Spanning
import ScriptSyntax.Proofs.Reading.Derived

/-! The tree of an accepted program read in order gives back its tokens, but for those that may be
lost where they stand: what only punctuates, a plus in front of a term, and the stars of types. -/
namespace ScriptSyntax

attribute [local simp] Shape.children

/-- What the tree of the arena carries are the tokens in their order, without some that may be lost
between the tokens before and after them. -/
def Arena.Reads (a : Arena) (lost : List Token → Token → List Token → Prop)
    (tokens : List Token) : Prop :=
  ∃ t, a.root = some t.id ∧ a.Holds t ∧ (t.reading.map Token.written).Sublist tokens ∧
    ∀ before token after, tokens = before ++ token :: after →
      token ∉ t.reading.map Token.written → lost before token after

variable {source : String} {file : Option String} {ts : List Token} {last : Token} {a b : Arena}
  {t : Tree}

theorem Accepted.accounts (program : Accepted source file ts last b t) :
    Accounts [] [] t.reading (ts ++ [last]) := by
  have block : Accounts ([last] ++ []) [] t.reading ts := program.derives.accounts .start
  simpa using block.append (.drop program.eof rfl .nil)

/-- The tree carries each plus and each star that stands behind what can only end an operand. -/
theorem parse_carries_operators (accepted : parse source file = .ok a) :
    ∃ tokens t, tokenize source file = .ok tokens ∧ a.root = some t.id ∧ a.Holds t ∧
      ∀ before u token after, tokens = before ++ u :: token :: after →
        (token.kind = .add ∨ token.kind = .multiply) → u.kind.closesOperand = true →
        u.kind ∉ [.increment, .decrement, .scopeClose, .mapType] →
        token ∈ t.reading.map Token.written := by
  obtain ⟨ts, last, b, t, program, rfl⟩ := parse_accepted accepted
  refine ⟨_, t, program.tokens, rfl, program.forest.holds_setRoot, ?_⟩
  intro before u token after split operator closes once
  by_contra missing
  rw [List.append_cons before] at split
  have lost : Lost ([] ++ (before ++ [u])) token (after ++ []) :=
    program.accounts.lost_of_missing split missing
  rcases lost.leads operator with goesOn | either
  · exact Bool.false_ne_true (goesOn.symm.trans closes)
  · exact once either

end ScriptSyntax
