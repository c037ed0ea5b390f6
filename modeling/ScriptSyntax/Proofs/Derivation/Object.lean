import ScriptSyntax.Proofs.Derivation.Block
import ScriptSyntax.Proofs.Derivation.Declaration

/-! Functions, classes, structures, interfaces and enumerations derive what they stand for. -/
namespace ScriptSyntax.Grammar

open Parse

variable {depth : Nat} {start : Point} {c : Cursor} {s : Scanner} {base : List Token}
  {forest : List Tree}

theorem name_sound (here : c.At s base forest) :
    Ensures depth start name c fun i c' => c'.Has s base forest .name i := by
  refine (here.expect .var).bind ?_
  rintro token c₁ ⟨-, var, here⟩
  refine (here.add forest .name rfl (by simp [Shape.children])).imp ?_
  rintro i c₂ ⟨-, here⟩
  exact ⟨_, .ofName i token, rfl, .name var, here⟩

theorem parameter_sound (sound : Sound depth) (here : c.At s base forest) :
    Ensures depth start parameter c fun i c' =>
      c'.Has s base forest (.binding [.comma, .parClose]) i := by
  refine (declaration_sound sound here false).bind ?_
  rintro _ c₁ ⟨ts, t, rfl, declaration, here⟩
  simp only [ensures_isAtAny]
  split
  · refine (assignment_sound sound here [.comma, .parClose]).imp ?_
    rintro i c₂ ⟨assigns, us, v, value, here⟩
    exact ⟨_, .ofAssignment i t v c₁.current, rfl, .bound declaration assigns value,
      by simpa using here⟩
  · exact .pure ⟨_, _, rfl, .bare declaration, here⟩

theorem func_sound (sound : Sound depth) (here : c.At s base forest) (stops : List Kind) :
    Ensures depth start (func stops) c fun i c' => c'.Has s base forest (.term stops) i := by
  refine (here.expect .funcKw).bind ?_
  rintro keyword c₁ ⟨-, func, here⟩
  refine (here.expect .parOpen).bind ?_
  rintro opener c₂ ⟨-, opens, here⟩
  refine (sound.call (.items [.parClose] .parameter) here).bind ?_
  rintro _ c₃ ⟨ts, ps, rfl, params, here⟩
  refine (here.expect .parClose).bind ?_
  rintro closer c₄ ⟨rfl, closes, here⟩
  refine (here.expect .direct).bind ?_
  rintro arrow c₅ ⟨-, direct, here⟩
  simp only [isAtBrace, ensures_isAtAny]
  split
  · refine (bracedBlock_sound sound here).bind ?_
    rintro _ c₆ ⟨us, b, rfl, braced, here⟩
    refine (here.add forest (.func ps b) rfl (by simp [Shape.children])).imp ?_
    rintro i c₇ ⟨same, here⟩
    exact ⟨_, _, rfl, .func func opens params closes direct (.bracedFunc (same ▸ braced)),
      by simpa using here⟩
  · refine (sound.call (.expression stops false) here).bind ?_
    rintro _ c₆ ⟨us, v, rfl, value, here⟩
    refine (here.add (forest ++ ps) (.returnStep v) rfl (by simp [Shape.children])).bind ?_
    rintro r c₇ ⟨same, here⟩
    refine (here.add (forest ++ ps) (.block [.node r (.returnStep v) none false]) rfl rfl).bind ?_
    rintro b c₈ ⟨again, here⟩
    refine (here.add forest (.func ps (.node b (.block [.node r (.returnStep v) none false]) none
      false)) rfl (by simp [Shape.children])).imp ?_
    rintro i c₉ ⟨last, here⟩
    rw [← same, ← again, ← last] at value
    exact ⟨_, _, rfl, .func func opens params closes direct (.valueFunc value),
      by simpa using here⟩

theorem members_sound (sound : Sound depth) (here : c.At s base forest) :
    Ensures depth start members c fun ids c' => c'.Has s base forest .members ids := by
  simp only [members, ensures_isAt, decide_eq_true_eq]
  split
  · next close => exact .pure ⟨[], [], rfl, .noMembers close, by simpa using here⟩
  rw [ensures_isAt]
  split
  · exact .fail
  refine (sound.call .statement here).bind ?_
  rintro _ c₁ ⟨ts, t, rfl, first, here⟩
  refine here.inspect.bind ?_
  rintro profile c₂ ⟨rfl, member, -⟩
  split
  · next accepted =>
    refine (sound.call .members here).bind ?_
    rintro _ c₃ ⟨us, rest, rfl, others, here⟩
    exact .pure ⟨_, _ :: _, rfl, .moreMembers first (member ▸ accepted) others,
      by simpa using here⟩
  · exact .fail

theorem memberBlock_sound (sound : Sound depth) (here : c.At s base forest) :
    Ensures depth start memberBlock c fun i c' => c'.Has s base forest .memberBlock i := by
  refine (sound.call .members here).bind ?_
  rintro _ c₁ ⟨ts, bs, rfl, members, here⟩
  refine (here.add forest (.block bs) rfl rfl).imp ?_
  rintro i c₂ ⟨same, here⟩
  exact ⟨_, _, rfl, .memberBlock (same ▸ members), here⟩

theorem memberBody_sound (sound : Sound depth) (here : c.At s base forest) :
    Ensures depth start memberBody c fun i c' => c'.Has s base forest .memberBody i := by
  refine (here.accept .mapType).bind ?_
  rintro _ c₁ (⟨empty, rfl, here⟩ | ⟨-, rfl, rfl⟩)
  · refine (here.add forest (.block []) rfl (by simp [Shape.children])).imp ?_
    rintro i c₂ ⟨-, here⟩
    exact ⟨_, _, rfl, .emptyMembers empty, here⟩
  · refine (here.expect .scopeOpen).bind ?_
    rintro opener c₂ ⟨-, opens, here⟩
    refine (memberBlock_sound sound here).bind ?_
    rintro _ c₃ ⟨ts, b, rfl, block, here⟩
    refine (here.expect .scopeClose).bind ?_
    rintro closer c₄ ⟨rfl, closes, here⟩
    exact .pure ⟨_, _, rfl, .memberBraces opens block closes, by simpa using here⟩

theorem heritage_sound (sound : Sound depth) (here : c.At s base forest) :
    Ensures depth start heritage c fun both c' => ∃ ts supers interfaces,
      both = (supers.map Tree.id, interfaces.map Tree.id) ∧
      Derives .heritage ts c'.current [supers, interfaces] ∧
      c'.At s (base ++ ts) (forest ++ (supers ++ interfaces)) := by
  refine (here.expect .parOpen).bind ?_
  rintro opener c₁ ⟨-, opens, here⟩
  refine (sound.call (.items [.colon, .parClose] .name) here).bind ?_
  rintro _ c₂ ⟨ts, xs, rfl, supers, here⟩
  refine (here.accept .colon).bind ?_
  rintro _ c₃ (⟨colon, rfl, here⟩ | ⟨-, rfl, rfl⟩)
  · refine (sound.call (.items [.parClose] .name) here).bind ?_
    rintro _ c₄ ⟨us, zs, rfl, interfaces, here⟩
    refine (here.expect .parClose).bind ?_
    rintro closer c₅ ⟨rfl, closes, here⟩
    refine (here.expect .direct).bind ?_
    rintro arrow c₆ ⟨-, direct, here⟩
    exact .pure ⟨_, xs, zs, rfl, .heritageOfBoth opens supers colon interfaces closes direct,
      by simpa using here⟩
  · refine (here.expect .parClose).bind ?_
    rintro closer c₄ ⟨rfl, closes, here⟩
    refine (here.expect .direct).bind ?_
    rintro arrow c₅ ⟨-, direct, here⟩
    exact .pure ⟨_, xs, [], rfl, .heritage opens supers closes direct, by simpa using here⟩

theorem classOrStruct_sound (sound : Sound depth) (here : c.At s base forest) (stops : List Kind) :
    Ensures depth start classOrStruct c fun i c' => c'.Has s base forest (.term stops) i := by
  simp only [classOrStruct, ensures_isAt]
  refine (here.expectAny [.classKw, .structKw]).bind ?_
  rintro keyword c₁ ⟨rfl, record, here⟩
  refine (heritage_sound sound here).bind ?_
  rintro _ c₂ ⟨ts, supers, interfaces, rfl, heritage, here⟩
  refine (memberBody_sound sound here).bind ?_
  rintro _ c₃ ⟨us, b, rfl, body, here⟩
  refine (here.add forest (.ofRecord c.current.kind supers interfaces b) ?_ ?_).imp ?_
  · by_cases isClass : c.current.kind = .classKw <;>
      simp [Shape.ofRecord, isClass, Shape.map, Yield.ids]
  · by_cases isClass : c.current.kind = .classKw <;>
      simp [Shape.ofRecord, isClass, Shape.children]
  rintro i c₄ ⟨same, here⟩
  exact ⟨_, _, rfl, .record (by simpa using record) heritage (same ▸ body), by simpa using here⟩

theorem interface_sound (sound : Sound depth) (here : c.At s base forest) (stops : List Kind) :
    Ensures depth start interface c fun i c' => c'.Has s base forest (.term stops) i := by
  refine (here.expect .interfaceKw).bind ?_
  rintro keyword c₁ ⟨-, interface, here⟩
  refine (here.expect .parOpen).bind ?_
  rintro opener c₂ ⟨-, opens, here⟩
  refine (sound.call (.items [.parClose] .name) here).bind ?_
  rintro _ c₃ ⟨ts, supers, rfl, names, here⟩
  refine (here.expect .parClose).bind ?_
  rintro closer c₄ ⟨rfl, closes, here⟩
  refine (here.expect .direct).bind ?_
  rintro arrow c₅ ⟨-, direct, here⟩
  refine (memberBody_sound sound here).bind ?_
  rintro _ c₆ ⟨us, b, rfl, body, here⟩
  refine (here.add forest (.interfaceDef supers b) rfl (by simp [Shape.children])).imp ?_
  rintro i c₇ ⟨same, here⟩
  exact ⟨_, _, rfl, .interface interface opens names closes direct (same ▸ body),
    by simpa using here⟩

theorem instanceTerm_sound (sound : Sound depth) (here : c.At s base forest) :
    Ensures depth start instanceTerm c fun i c' => c'.Has s base forest .instanceTerm i := by
  refine (name_sound here).bind ?_
  rintro _ c₁ ⟨ts, t, rfl, name, here⟩
  refine (here.accept? .parOpen).bind ?_
  rintro _ c₂ (⟨opens, rfl, here⟩ | ⟨-, rfl, rfl⟩)
  · refine (sound.call (.items [.parClose] (.expression false)) here).bind ?_
    rintro _ c₃ ⟨us, as, rfl, args, here⟩
    refine (here.expect .parClose).bind ?_
    rintro closer c₄ ⟨rfl, closes, here⟩
    refine (here.add forest (.call t as) rfl (by simp [Shape.children])).imp ?_
    rintro i c₅ ⟨-, here⟩
    exact ⟨_, _, rfl, .callInstance name opens args closes, by simpa using here⟩
  · exact .pure ⟨_, _, rfl, .nameInstance name, here⟩

theorem instances_sound (sound : Sound depth) (here : c.At s base forest) :
    Ensures depth start instances c fun ids c' => c'.Has s base forest .instances ids := by
  refine (instanceTerm_sound sound here).bind ?_
  rintro _ c₁ ⟨ts, t, rfl, first, here⟩
  refine (here.accept .comma).bind ?_
  rintro _ c₂ (⟨comma, rfl, here⟩ | ⟨-, rfl, rfl⟩)
  · simp only [if_true, ensures_isAt, decide_eq_true_eq]
    split
    · next eol =>
      exact .pure ⟨_, [t], rfl, .instanceComma first comma eol, by simpa using here⟩
    · refine (sound.call .instances here).bind ?_
      rintro _ c₃ ⟨us, rest, rfl, others, here⟩
      exact .pure ⟨_, _ :: _, rfl, .moreInstances first comma others, by simpa using here⟩
  · exact .pure ⟨_, [t], rfl, .lastInstance first, here⟩

theorem enumeration_sound (sound : Sound depth) (here : c.At s base forest) (stops : List Kind) :
    Ensures depth start enumeration c fun i c' => c'.Has s base forest (.term stops) i := by
  refine (here.expect .enumKw).bind ?_
  rintro keyword c₁ ⟨-, enum, here⟩
  refine (heritage_sound sound here).bind ?_
  rintro _ c₂ ⟨ts, supers, interfaces, rfl, heritage, here⟩
  refine (here.expect .scopeOpen).bind ?_
  rintro opener c₃ ⟨-, opens, here⟩
  refine (sound.call .instances here).bind ?_
  rintro _ c₄ ⟨us, cs, rfl, instances, here⟩
  refine (here.expect .eol).bind ?_
  rintro semi c₅ ⟨rfl, eol, here⟩
  refine (memberBlock_sound sound here).bind ?_
  rintro _ c₆ ⟨vs, b, rfl, block, here⟩
  refine (here.expect .scopeClose).bind ?_
  rintro closer c₇ ⟨rfl, closes, here⟩
  refine (here.add forest (.enumDef supers interfaces cs b) rfl (by simp [Shape.children])).imp ?_
  rintro i c₈ ⟨-, here⟩
  exact ⟨_, _, rfl, .enumeration enum heritage opens instances eol block closes,
    by simpa using here⟩

/-- A construct is a term. -/
theorem construct_sound (sound : Sound depth) (here : c.At s base forest) (stops : List Kind) :
    Ensures depth start (construct stops) c fun i c' => c'.Has s base forest (.term stops) i := by
  simp only [construct, ensures_current]
  split
  · exact func_sound sound here stops
  · exact classOrStruct_sound sound here stops
  · exact classOrStruct_sound sound here stops
  · exact interface_sound sound here stops
  · exact enumeration_sound sound here stops
  · exact .fail

end ScriptSyntax.Grammar
