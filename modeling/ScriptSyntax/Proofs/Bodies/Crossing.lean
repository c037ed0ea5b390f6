import ScriptSyntax.Proofs.Bodies.Entering

/-! Whole runs on two sources that differ in how an empty body is written. Up to the keyword of the
body they are the same, the keyword is taken only to come to its body, and behind that the runs are
the same again. -/
namespace ScriptSyntax

open Parse
open Cursor (Level)

/-- What balks at a `(` does not end well there. -/
theorem Parse.Balks.not_ok {α : Type} {p : Parse α}
    {rules : {y : Yield} → Rule y → Cursor → Option (Cursor.Outcome y.Value)} {start : Point}
    {c d : Cursor} {a : α} (balks : p.Balks) (kind : c.current.kind = .parOpen) :
    p.exec rules start c ≠ some (.ok a, d) := by
  induction p generalizing c with
  | done b => cases balks
  | fail blame fault =>
    intro ran
    cases blame <;> cases ran
  | step action next ih =>
    cases action with
    | current =>
      intro ran
      obtain ⟨answer, e, acted, later⟩ := exec_step_ok.mp ran
      cases acted
      exact ih _ (kind ▸ balks) kind later
    | _ => cases balks

namespace Seam

variable {α : Type} {x : Seam} {i j depth : Nat} {start start' : Point} {c c' d e : Cursor} {a : α}
  {p : Parse α}

/-- The sources up to the keyword. -/
abbrev shared (x : Seam) : Verge := x.verge x.opens x.opens_lt (Kind.isBlunt_of_stage? x.keyword)

/-- Calls that nest up to the depth, other than for types, keep the cursors beside each other. -/
def Even (x : Seam) (depth : Nat) : Prop :=
  ∀ {y : Yield} (rule : Rule y) (c c' d : Cursor) (v : y.Value), rule.isTyping = false →
    (∃ s base forest, rule.Ready c s base forest) → x.Beside c c' →
    rule.run depth c = some (.ok v, d) →
    ∃ d', rule.run (depth + 1) c' = some (.ok v, d') ∧ x.Beside d d'

/-- A run that has gone past the keyword is behind the braces if it is beside another one. -/
theorem Beside.past (beside : x.Beside c c') (walks : c.Walks x.first j) (further : x.opens < j) :
    x.Past c c' := by
  refine beside.resolve_left ?_
  rintro ⟨i, le, level⟩
  have inside : i < x.stop := by
    have := x.opens_lt
    have := x.place_lt
    omega
  have := x.ends.place_eq (level.first.same walks) inside
  omega

/-- Types that end behind the keyword end before a `(`. -/
theorem kind_of_typing {y : Yield} {rule : Rule y} {v : y.Value} (typing : rule.isTyping = true)
    (walks : c.Walks x.first i) (before : i ≤ x.opens)
    (ready : ∃ s base forest, rule.Ready c s base forest)
    (called : rule.run depth c = some (.ok v, e)) (walks' : e.Walks x.first j)
    (past : x.opens < j) : e.current.kind = .parOpen := by
  obtain ⟨s, base, forest, ready⟩ := ready
  have fresh : rule.isFresh = true := by cases rule <;> first | contradiction | rfl
  obtain ⟨ts, r, -, derives, there⟩ := sound depth rule c e s base forest v ready called
  have here : c.At s base forest := ready.at fresh
  have lies := here.lies there walks
  have words (n : Nat) (from' : i ≤ n) (upto : n < i + ts.length) :
      (x.first n).kind.isTypeWord = true := by
    have inside : n - i < ts.length := by omega
    have same := lies (n - i) inside
    rw [Nat.add_sub_cancel' from'] at same
    exact same ▸ derives.isTypeWord (Rule.isTyping_phrase typing) _ (List.getElem_mem inside)
  have arrives (inside : i + ts.length < x.stop) : i + ts.length = j :=
    here.place_eq there walks walks' x.ends inside
  have before' := x.opens_lt
  have inside := x.place_lt
  have taken : x.opens < i + ts.length := by
    by_contra short
    have := arrives (by omega)
    omega
  -- The keyword is a type, so that it has a header.
  have header : x.stage = .header := by
    have word := words x.opens before taken
    simp only [Kind.isTypeWord, x.keyword, Option.all_some, Bool.and_eq_true,
      decide_eq_true_eq] at word
    exact word.2
  have opens := (header ▸ x.stands : x.Stands .header _).header.1
  have last : i + ts.length = x.opens + 1 := by
    by_contra longer
    have word := words (x.opens + 1) (by omega) (by omega)
    rw [opens] at word
    cases word
  have lt := x.stands.lt (header ▸ nofun)
  obtain rfl := arrives (by omega)
  rw [walks'.current, last, opens]

/-- What takes the keyword comes to stand behind the braces. -/
theorem past_of_crosses (even : x.Even depth) (start' : Point)
    (crosses : x.shared.Crosses true depth start a d p c c') (apt : p.Apt depth c) :
    ∃ d', p.exec (Rule.run (depth + 1)) start' c' = some (.ok a, d') ∧ x.Past d d' := by
  induction crosses with
  | shift abreast opens acted ran =>
    obtain ⟨e', acted', level⟩ := abreast.level.act_shift x.shared.same acted
    obtain ⟨d', ran', past⟩ := enters_of_approaches (opens rfl x.stage x.keyword) depth _ x.stands
      level (apt.2 _ _ acted) ran
    exact ⟨d', exec_step_ok.mpr ⟨_, e', acted', ran'⟩, past⟩
  | @call y rule next c c' e v i j abreast called walks past balks ran =>
    cases typing : rule.isTyping with
    | true =>
      have opens := kind_of_typing typing abreast.first abreast.within apt.1 called walks past
      exact absurd ran ((balks rfl typing).not_ok opens)
    | false =>
      obtain ⟨e', called', beside⟩ :=
        even rule c c' e v typing apt.1 (.inl ⟨i, abreast.within, abreast.level⟩) called
      obtain ⟨d', ran', past⟩ := (beside.past walks past).exec start' ran
      exact ⟨d', exec_step_ok.mpr ⟨v, e', called', exec_of_le (Nat.le_succ depth) ran'⟩, past⟩
  | later acted acted' crosses ih =>
    obtain ⟨d', ran', past⟩ := ih (apt.2 _ _ acted)
    have acted' := exec_of_le (Nat.le_succ depth) ((@exec_perform _ start' ..).trans acted')
    exact ⟨d', exec_step_ok.mpr ⟨_, _, (exec_perform _).symm.trans acted', ran'⟩, past⟩

theorem even (x : Seam) (depth : Nat) : x.Even depth := by
  induction depth with
  | zero => exact fun _ _ _ _ _ _ _ _ ran => nomatch ran
  | succ depth ih =>
    intro y rule c c' d v plain ready beside ran
    obtain ⟨i, le, level⟩ | past := beside
    case inr =>
      obtain ⟨d', ran', past⟩ := past.exec c'.point ran
      exact ⟨d', exec_of_le (Nat.le_succ depth) ran', .inr past⟩
    obtain ⟨s, base, forest, ready⟩ := ready
    have heeds := rule.body_heeds c.current.kind
    rw [plain] at heeds
    rcases x.shared.keeps_or_crosses (x.shared.looseRules depth) c'.point heeds
      (.of_level level le) (.inl rfl) ran with ⟨j, d', ran', after⟩ | crosses
    · exact ⟨d', exec_of_le (Nat.le_succ depth) ran', .inl ⟨j, after.within, after.level⟩⟩
    · obtain ⟨d', ran', past⟩ := past_of_crosses ih c'.point crosses (ready.apt depth)
      exact ⟨d', ran', .inr past⟩

end Seam
end ScriptSyntax
