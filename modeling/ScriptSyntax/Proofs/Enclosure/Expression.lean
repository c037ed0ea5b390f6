import ScriptSyntax.Proofs.Enclosure.Firm

/-! Expressions before a `;` are read alike before a `)`. Their stops are handed on to the terms and
to the functions at their ends, while all that stands between marks of its own has other stops. -/
namespace ScriptSyntax

open Parse Grammar

namespace Enclosure

variable {x : Enclosure} {depth i : Nat}

/-- Calls that nest up to the depth give the same with either stop, if they are for rules that may
end where an expression does. -/
structure FirmRules (x : Enclosure) (depth : Nat) : Prop where
  expression : x.Firm depth (call (.expression [.eol] false)) (call (.expression [.parClose] false))
  weave : ∀ left, x.Firm depth (call (.weave left [.eol] false))
    (call (.weave left [.parClose] false))
  term : x.Firm depth (call (.term [.eol])) (call (.term [.parClose]))
  suffix : ∀ operand, x.Firm depth (call (.suffix operand)) (call (.suffix operand))

theorem sure_expect (k : Kind) : x.Sure depth (expect k) :=
  sure_of_closes (.of_sightless (by simp)) (by simp)

/-- At a `;` before the last one an expression ends too. -/
theorem strays_weave (left : NodeId) : x.Strays depth (call (.weave left [.eol] false)) := by
  rintro start c d id ⟨j, walks, past | ⟨before, eol⟩⟩ ran
  · exact lost_of_past walks past ran
  · cases depth with
    | zero => cases ran
    | succ depth =>
      have kind : c.current.kind = .eol := walks.current ▸ eol
      have ran : (Grammar.weave left [.eol] false).exec (Rule.run depth) c.point c =
          some (.ok id, d) := (exec_perform _).symm.trans ran
      rw [Grammar.weave, exec_current kind, if_pos (by decide), settle, exec_perform] at ran
      obtain ⟨current, pending, scanner, -⟩ := c.regroup_keeps left
      cases ran
      exact ⟨j, walks.stay scanner current pending, .inr ⟨before, eol⟩⟩

/-- No term begins with a `)`. -/
theorem term_ne_ok {c d : Cursor} {start : Point} {id : NodeId} {stops : List Kind}
    (kind : c.current.kind = .parClose) :
    (call (.term stops)).exec (Rule.run depth) start c ≠ some (.ok id, d) := by
  intro ran
  cases depth with
  | zero => cases ran
  | succ depth =>
    have ran : (Grammar.term stops).exec (Rule.run depth) c.point c = some (.ok id, d) :=
      (exec_perform _).symm.trans ran
    rw [Grammar.term, exec_current kind] at ran
    cases ran

namespace FirmRules

variable (rules : x.FirmRules depth)

include rules

theorem expression_body :
    x.Firm depth (Grammar.expression [.eol] false) (Grammar.expression [.parClose] false) := by
  intro i
  refine firmAt_current (fun inside k kind => ?_) (sure_add _ _ i).firm
  by_cases eol : k = .eol
  · subst eol
    intro start start' c c' d a abreast ran
    cases ran
    exact .inr ⟨i, abreast.first.stay rfl rfl rfl, .inr ⟨inside, kind⟩⟩
  by_cases close : k = .parClose
  · subst close
    intro start start' c c' d a abreast ran
    obtain ⟨first, e, before, -⟩ := exec_bind_ok.mp ran
    exact absurd before (term_ne_ok (abreast.first.current ▸ kind))
  · dsimp only
    rw [if_neg (by simpa using eol), if_neg (by simpa using close)]
    exact (rules.term i).bind strays_weave rules.weave

theorem binary (left : NodeId) :
    x.Firm depth (Grammar.binary left [.eol] false) (Grammar.binary left [.parClose] false) := by
  intro i
  refine .of_moves 0 (by simp [Grammar.binary, Rule.rank, Rule.moves]) fun inside => ?_
  refine (sureAt_shift inside).bind fun token i => ?_
  refine (rules.term i).bind (fun right => ?_) fun right i => ?_
  · exact (strays_add _ _).bind fun chain => strays_weave chain
  · exact (sure_add _ _ i).bind fun chain => rules.weave chain

theorem leading : x.Firm depth (Grammar.leading [.eol]) (Grammar.leading [.parClose]) := by
  intro i
  refine .of_moves 0 (by simp [Grammar.leading]) fun inside => ?_
  refine (sureAt_shift inside).bind fun token i => ?_
  exact (rules.term i).bind (fun operand => strays_add _ _) fun operand i => (sure_add _ _ i).firm

theorem func : x.Firm depth (Grammar.func [.eol]) (Grammar.func [.parClose]) := by
  intro i
  refine (sure_expect _ i).bind fun token i => ?_
  refine (sure_expect _ i).bind fun _ => ?_
  refine Loose.bind 0 (.of_peeks (.of_sightless rfl)) (fun params => by simp) fun params i => ?_
  refine (sure_expect _ i).bind fun _ i => ?_
  refine (sure_expect _ i).bind fun _ => ?_
  refine firm_isAtAny (by decide) (by decide) ?_
  rintro (- | -) i
  · refine (rules.expression i).bind (fun value => ?_) fun value i => ?_
    · refine (strays_add _ _).bind fun result => ?_
      exact (strays_add _ _).bind fun body => strays_add _ _
    · refine (sure_add _ _ i).bind fun result i => ?_
      exact (sure_add _ _ i).bind fun body i => (sure_add _ _ i).firm
  · refine (sure_of_closes (.of_sightless (by simp)) bracedBlock_closes i).bind fun body i => ?_
    exact (sure_add _ _ i).firm

theorem construct :
    x.Firm depth (Grammar.construct [.eol]) (Grammar.construct [.parClose]) := by
  intro i
  refine firmAt_current (fun inside k kind => ?_) (firm_fail i)
  split
  · exact rules.func i
  · exact (sure_of_closes (.of_sightless (by simp)) classOrStruct_closes i).firm
  · exact (sure_of_closes (.of_sightless (by simp)) classOrStruct_closes i).firm
  · exact (sure_of_closes (.of_sightless (by simp)) interface_closes i).firm
  · exact (sure_of_closes (.of_sightless (by simp)) enumeration_closes i).firm
  · exact firm_fail i

theorem weave_body (left : NodeId) : x.Firm depth (Grammar.weave left [.eol] false)
    (Grammar.weave left [.parClose] false) := by
  have sure : x.Sure depth (settle left) := sure_still rfl nofun
  intro i
  have settled : x.FirmAt depth i (settle left) (settle left) := (sure i).firm
  refine firmAt_current (fun inside k kind => ?_) settled
  by_cases stop : k = .eol ∨ k = .parClose
  · rcases stop with rfl | rfl <;> exact settled
  have outside : ¬[Kind.eol].contains k = true ∧ ¬[Kind.parClose].contains k = true := by
    simpa using stop
  rw [if_neg outside.1, if_neg outside.2]
  split
  · exact firm_fail i
  split
  · refine Loose.bind 0 (.of_peeks (isAtInlineTypes_peeks left)) ?_ ?_ i
    · rintro (- | -)
      · simp [Grammar.binary, Rule.rank, Rule.moves]
      · simp [typeList]
    · rintro (- | -) i
      · exact rules.binary left i
      refine (sure_of_closes (.of_sightless (by simp)) typeList_closes i).bind fun types i => ?_
      refine (sure_add _ _ i).bind fun declaration => ?_
      refine firm_isAtAny (by decide) (by decide) ?_
      rintro (- | -)
      · exact firm_pure
      · exact firm_fail
  split
  · refine (sureAt_shift inside).bind fun token => ?_
    refine Loose.bind 0 (.of_peeks (.of_sightless rfl)) (fun center => by simp) fun center i => ?_
    refine (sure_expect _ i).bind fun _ i => ?_
    refine (rules.expression i).bind (fun right => ?_) fun right i => ?_
    · exact (strays_add _ _).bind fun chain => strays_weave chain
    · exact (sure_add _ _ i).bind fun chain => rules.weave chain
  split
  · exact rules.binary left i
  · exact settled

theorem term_body : x.Firm depth (Grammar.term [.eol]) (Grammar.term [.parClose]) := by
  intro i
  refine firmAt_current (fun inside k kind => ?_) (firm_fail i)
  split
  · refine (sureAt_shift inside).bind fun token i => ?_
    refine (sure_add _ _ i).bind fun atom i => ?_
    split
    · exact rules.suffix atom i
    · exact firm_pure i
  split
  · refine (sureAt_shift inside).bind fun _ => ?_
    refine Loose.bind 0 (.of_peeks (.of_sightless rfl)) (fun inner => by simp) fun inner i => ?_
    exact (sure_expect _ i).bind fun _ => rules.suffix inner
  · refine (sureAt_shift inside).bind fun star i => ?_
    exact (rules.term i).bind (fun operand => strays_add _ _) fun operand i => (sure_add _ _ i).firm
  iterate 5 exact rules.leading i
  · exact (sureAt_shift inside).bind fun _ => rules.term
  · split
    · exact rules.construct i
    split
    · refine (sure_of_closes collection_peeks collection_closes i).bind fun value => ?_
      exact rules.suffix value
    · exact firm_fail i

theorem suffix_body (operand : NodeId) :
    x.Firm depth (Grammar.suffix operand) (Grammar.suffix operand) := by
  intro i
  refine firmAt_current (fun inside k kind => ?_) (firm_pure i)
  -- The node that is added goes on as the operand.
  have further (shape : Shape NodeId) (token : Option Token) :
      x.Firm depth (Parse.add shape token >>= fun node => call (.suffix node))
        (Parse.add shape token >>= fun node => call (.suffix node)) :=
    fun i => (sure_add shape token i).bind rules.suffix
  split
  · refine (sure_of_closes (.of_sightless (by simp)) (access_closes operand) i).bind fun node => ?_
    exact rules.suffix node
  iterate 2
    refine (sureAt_shift inside).bind fun token i => ?_
    refine (sure_of_closes (.of_sightless (by simp)) property_closes i).bind fun property => ?_
    exact further _ _
  · refine (sureAt_shift inside).bind fun token => ?_
    refine Loose.bind 0 (.of_peeks (.of_sightless rfl)) (fun args => by simp) fun args i => ?_
    exact (sure_expect _ i).bind fun _ => further _ _
  iterate 3 exact (sureAt_shift inside).bind fun token => further _ _
  · refine firmAt_peek inside (fun next => ?_) rfl
    split
    · exact firm_pure i
    · exact (sureAt_shift inside).bind fun mark => further _ _
  · rw [rounding, LawfulMonad.bind_assoc]
    refine (sureAt_shift inside).bind fun token i => ?_
    rw [LawfulMonad.bind_assoc]
    refine firmAt_current (fun inside next _ => ?_) (further _ _ i)
    cases atomShape? next with
    | none => exact further _ _ i
    | some shape =>
      exact (sure_of_closes (.of_sightless (by simp)) (by simp) i).bind rules.suffix
  · exact firm_pure i

end FirmRules

theorem firm_call {y : Yield} {rule rule' : Rule y} (firm : x.Firm depth rule.body rule'.body) :
    x.Firm (depth + 1) (call rule) (call rule') := by
  intro i start start' c c' d a abreast ran
  rw [call, exec_perform] at ran
  refine (firm i c.point c'.point c c' d a abreast ran).imp_left ?_
  rintro ⟨j, d', ran', after⟩
  exact ⟨j, d', (exec_perform (.call rule')).trans ran', after⟩

theorem firmRules (x : Enclosure) (depth : Nat) : x.FirmRules depth := by
  induction depth with
  | zero =>
    constructor <;> intros <;> intro i start start' c c' d a abreast ran <;> cases ran
  | succ depth ih =>
    exact ⟨firm_call ih.expression_body, fun left => firm_call (ih.weave_body left),
      firm_call ih.term_body, fun operand => firm_call (ih.suffix_body operand)⟩

end Enclosure
end ScriptSyntax
