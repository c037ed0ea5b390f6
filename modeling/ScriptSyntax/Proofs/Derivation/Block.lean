import ScriptSyntax.Proofs.Derivation.Run

/-! Blocks of statements derive what they stand for. -/
namespace ScriptSyntax.Grammar

open Parse

variable {depth : Nat} {start : Point} {c : Cursor} {s : Scanner} {base : List Token}
  {forest : List Tree}

theorem statements_sound (sound : Sound depth) (here : c.At s base forest) (stops : List Kind) :
    Ensures depth start (statements stops) c fun ids c' =>
      c'.Has s base forest (.statements stops) ids := by
  simp only [statements, ensures_isAtAny]
  split
  · next stop => exact .pure ⟨[], [], rfl, .noStatements stop, by simpa using here⟩
  rw [ensures_isAt]
  split
  · exact .fail
  refine (sound.call .statement here).bind ?_
  rintro _ c₁ ⟨ts, t, rfl, first, here⟩
  refine (sound.call (.statements stops) here).bind ?_
  rintro _ c₂ ⟨us, rest, rfl, others, here⟩
  exact .pure ⟨_, _ :: _, rfl, .moreStatements first others, by simpa using here⟩

theorem block_sound (sound : Sound depth) (here : c.At s base forest) (stops : List Kind) :
    Ensures depth start (block stops) c fun i c' => c'.Has s base forest (.block stops) i := by
  refine (sound.call (.statements stops) here).bind ?_
  rintro _ c₁ ⟨ts, bs, rfl, statements, here⟩
  refine (here.add forest (.block bs) rfl rfl).imp ?_
  rintro i c₂ ⟨same, here⟩
  exact ⟨_, _, rfl, .block (same ▸ statements), here⟩

theorem bracedBlock_sound (sound : Sound depth) (here : c.At s base forest) :
    Ensures depth start bracedBlock c fun i c' => c'.Has s base forest .braced i := by
  refine (here.accept .mapType).bind ?_
  rintro _ c₁ (⟨empty, rfl, here⟩ | ⟨-, rfl, rfl⟩)
  · refine (here.add forest (.block []) rfl (by simp [Shape.children])).imp ?_
    rintro i c₂ ⟨-, here⟩
    exact ⟨_, _, rfl, .emptyBraces empty, here⟩
  · refine (here.expect .scopeOpen).bind ?_
    rintro opener c₂ ⟨-, opens, here⟩
    refine (block_sound sound here [.scopeClose]).bind ?_
    rintro _ c₃ ⟨ts, b, rfl, block, here⟩
    refine (here.expect .scopeClose).bind ?_
    rintro closer c₄ ⟨rfl, closes, here⟩
    exact .pure ⟨_, _, rfl, .braces opens block closes, by simpa using here⟩

theorem body_sound (sound : Sound depth) (here : c.At s base forest) :
    Ensures depth start body c fun i c' => c'.Has s base forest .body i := by
  simp only [body, isAtBrace, ensures_isAtAny]
  split
  · refine (bracedBlock_sound sound here).imp ?_
    rintro _ c₁ ⟨ts, b, rfl, braced, here⟩
    exact ⟨_, _, rfl, .bracedBody braced, here⟩
  · refine (sound.call .statement here).bind ?_
    rintro _ c₁ ⟨ts, t, rfl, statement, here⟩
    refine (here.add forest (.block [t]) rfl rfl).imp ?_
    rintro i c₂ ⟨same, here⟩
    exact ⟨_, _, rfl, .singleBody (same ▸ statement), here⟩

end ScriptSyntax.Grammar
