import ScriptSyntax.Proofs.Layout.Run
import ScriptSyntax.Proofs.Program.Faults

/-! Layout does not matter. What a source is parsed into, or fails with, depends on the kinds and
the values of its tokens alone. -/
namespace ScriptSyntax

open Cursor (Outcome)

theorem Cursor.Follows.start {source : String} {file : Option String} {c : Cursor}
    (started : Cursor.start source file = .ok c) : c.Follows (.ofText source file) :=
  ⟨[], (Cursor.start_at started).reads⟩

/-- Blocks are read alike from cursors that are alike. -/
theorem Cursor.Alike.block {base : Arena} {s s' : Scanner} {c c' : Cursor} {taken : List Token}
    {forest : List Tree} (alike : Alike base c c') (here : c.At s taken forest)
    (follows : c'.Follows s') (stops : List Kind) :
    Outcome.Agree base (fun i j => base.size + i = j) (c.run (Grammar.block stops))
      (c'.run (Grammar.block stops)) := by
  have ran := run_eq_of_ends (Follows.run ⟨taken, here.reads⟩
    (block_proceeds stops c.current.kind)) (Nat.le_max_left c.depth c'.depth)
  have ran' := run_eq_of_ends (follows.run (block_proceeds stops c'.current.kind))
    (Nat.le_max_right c.depth c'.depth)
  have owns : (Grammar.block stops).Owns (forest.map Tree.id).reverse fun _ _ => True :=
    Grammar.owns_block.mpr fun _ => trivial
  have concur : Concur base (fun i j => base.size + i = 0 + j)
      (some (c.run (Grammar.block stops))) (some (c'.run (Grammar.block stops))) := by
    rw [← ran, ← ran']
    exact Parse.concur (uniform base _) owns (.of_forest here.forest)
      (Grammar.told_block base.size stops) (Grammar.told_block 0 stops) alike
  cases concur with
  | some agree => simpa only [Nat.zero_add] using agree

variable {source source' : String} {file file' : Option String} {ts us : List Token}

theorem parse_unplaced (ok : tokenize source file = .ok ts) (ok' : tokenize source' file' = .ok us)
    (same : ts.map Token.unplaced = us.map Token.unplaced) :
    (∃ a b, parse source file = .ok a ∧ parse source' file' = .ok b ∧ a.unplaced = b.unplaced) ∨
      ∃ e e', parse source file = .error e ∧ parse source' file' = .error e' ∧
        e.fault = e'.fault := by
  obtain ⟨c, c', started, started', alike⟩ := Cursor.Alike.start ok ok' same
  have agree := alike.block (Cursor.start_at started) (.start started') [.eof]
  simp only [parse, parseTraced, started, started', Cursor.program]
  generalize c.run (Grammar.block [.eof]) = outcome at agree ⊢
  generalize c'.run (Grammar.block [.eof]) = outcome' at agree ⊢
  cases agree with
  | @ok block _ d d' result alike =>
    rw [Arena.size_empty, Nat.zero_add] at result
    subst result
    refine .inl ⟨_, _, rfl, rfl, ?_⟩
    rw [← Arena.setRoot_unplaced, ← Arena.setRoot_unplaced, alike.arena, Arena.atop_empty]
  | error fault => exact .inr ⟨_, _, rfl, rfl, fault⟩

theorem parse_unplaced_comment : ∃ ts us a b, tokenize "x = a+b;" none = .ok ts ∧
    tokenize "x =\n  a + b /* sum */ ;" (some "sum") = .ok us ∧
    ts.map Token.unplaced = us.map Token.unplaced ∧
    parse "x = a+b;" none = .ok a ∧
    (a.shape? 4 = some (.assignment 0 3 false) ∧ a.shape? 3 = some (.binaryOp 1 2)) ∧
    parse "x =\n  a + b /* sum */ ;" (some "sum") = .ok b ∧ a.unplaced = b.unplaced := by
  have same : (tokenize "x = a+b;" none).toOption.any (fun ts =>
      (tokenize "x =\n  a + b /* sum */ ;" (some "sum")).toOption.any (fun us =>
        ts.map Token.unplaced = us.map Token.unplaced) = true) = true := by decide +kernel
  have sum : (parse "x = a+b;" none).toOption.any (fun a =>
      a.shape? 4 = some (.assignment 0 3 false) ∧ a.shape? 3 = some (.binaryOp 1 2)) = true := by
    decide +kernel
  obtain ⟨ts, ok, same⟩ := exists_ok same
  obtain ⟨us, ok', alike⟩ := exists_ok same
  obtain ⟨a, accepted, shown⟩ := exists_ok sum
  rcases parse_unplaced ok ok' alike with ⟨a', b, again, accepted', equal⟩ | ⟨e, _, failed, -⟩
  · cases accepted.symm.trans again
    exact ⟨ts, us, a, b, ok, ok', alike, accepted, shown, accepted', equal⟩
  · cases accepted.symm.trans failed

end ScriptSyntax
