import ScriptSyntax.Proofs.Bodies.Grammar
import ScriptSyntax.Proofs.Enclosure.Beside

/-! Runs on two sources up to a blunt token. They keep abreast as long as they have not taken that
token, since nothing looks past it before. -/
namespace ScriptSyntax

open Cursor (Outcome)
open Parse (Approaches)

/-- Two sources that have a blunt token and all before it in common. -/
structure Verge extends Fork where
  same : long size = short size
  blunt : (short size).kind.isBlunt = true
  stop : Nat
  ends : EndsAt short stop

namespace Verge

variable {α : Type} (x : Verge) {i clear depth : Nat} {start start' : Point} {c c' d : Cursor}
  {strict : Bool} {a : α} {p : Parse α}

/-- Calls that nest up to the depth keep abreast, or take the blunt token. -/
def LooseRules (depth : Nat) : Prop :=
  ∀ {y : Yield} (rule : Rule y) (i : Nat) (c c' d : Cursor) (a : y.Value), x.Abreast i c c' →
    rule.run depth c = some (.ok a, d) →
    x.Keeps (rule.run depth c') a d ∨ ∃ j, x.size < j ∧ d.Walks x.short j

/-- The run keeps abreast with one on the second source up to an action that takes the blunt token:
it is taken itself there, or in a call. -/
inductive Crosses (strict : Bool) (depth : Nat) (start : Point) {α : Type} (a : α) (d : Cursor) :
    Parse α → Cursor → Cursor → Prop where
  | shift {next : Token → Parse α} {c c' e : Cursor} {t : Token}
      (abreast : x.Abreast x.size c c')
      (opens : strict = true →
        ∀ stage, (x.short x.size).kind.stage? = some stage → Approaches stage (next t))
      (acted : Parse.act (Rule.run depth) .shift c = some (.ok t, e))
      (ran : (next t).exec (Rule.run depth) start e = some (.ok a, d)) :
      Crosses strict depth start a d (.step .shift next) c c'
  | call {y : Yield} {rule : Rule y} {next : y.Value → Parse α} {c c' e : Cursor} {v : y.Value}
      {i j : Nat} (abreast : x.Abreast i c c') (called : rule.run depth c = some (.ok v, e))
      (walks : e.Walks x.short j) (past : x.size < j)
      (balks : strict = true → rule.isTyping = true → (next v).Balks)
      (ran : (next v).exec (Rule.run depth) start e = some (.ok a, d)) :
      Crosses strict depth start a d (.step (.call rule) next) c c'
  | later {action : Action} {next : action.Answer → Parse α} {answer : action.Answer}
      {c c' e e' : Cursor} (acted : Parse.act (Rule.run depth) action c = some (.ok answer, e))
      (acted' : Parse.act (Rule.run depth) action c' = some (.ok answer, e'))
      (crosses : Crosses strict depth start a d (next answer) e e') :
      Crosses strict depth start a d (.step action next) c c'

variable {x}

theorem eq_of_le (within : i ≤ x.size) : x.long i = x.short i := by
  rcases Nat.lt_or_eq_of_le within with inside | rfl
  · exact x.common i inside
  · exact x.same

theorem keeps_or_crosses (rules : x.LooseRules depth) (start' : Point)
    (heeds : p.Heeds strict c.current.kind clear) (abreast : x.Abreast i c c')
    (near : clear = 0 ∨ i + clear < x.size)
    (ran : p.exec (Rule.run depth) start c = some (.ok a, d)) :
    x.Keeps (p.exec (Rule.run depth) start' c') a d ∨
      x.Crosses strict depth start a d p c c' := by
  induction p generalizing clear i c c' with
  | done b =>
    cases ran
    exact .inl ⟨i, c', rfl, abreast⟩
  | fail blame fault => cases blame <;> cases ran
  | step action next ih =>
    obtain ⟨answer, e, acted, later⟩ := Parse.exec_step_ok.mp ran
    -- A run that goes on abreast, which is what it was before the action.
    have goesOn {j clear : Nat} {e' : Cursor}
        (heeds : (next answer).Heeds strict e.current.kind clear)
        (acted' : Parse.act (Rule.run depth) action c' = some (.ok answer, e'))
        (abreast : x.Abreast j e e') (near : clear = 0 ∨ j + clear < x.size) :
        x.Keeps ((Parse.step action next).exec (Rule.run depth) start' c') a d ∨
          x.Crosses strict depth start a d (.step action next) c c' := by
      rw [Parse.exec, acted']
      exact (ih answer heeds abreast near later).imp_right (.later acted acted')
    by_cases still : action.isStill = true
    · obtain ⟨e', acted', after⟩ := abreast.level.act_still still
        (fun _ => congrArg Token.kind (eq_of_le abreast.within)) acted
      have stays : e.current = c.current := after.first.current.trans abreast.first.current.symm
      refine goesOn ?_ acted' (.of_level after abreast.within) near
      rw [stays]
      cases action with
      | peek _ | shift | call _ => contradiction
      | current =>
        cases acted
        exact heeds
      | _ => exact heeds answer
    cases action with
    | peek distance =>
      obtain ⟨sharp, close, heeds⟩ := heeds
      have inside : i < x.size := by
        refine Nat.lt_of_le_of_ne abreast.within ?_
        rintro rfl
        rw [abreast.first.current, x.blunt] at sharp
        contradiction
      have within : i + distance ≤ x.size := by omega
      obtain ⟨e', acted', after⟩ :=
        abreast.level.act_peek (congrArg Token.kind (eq_of_le within)) acted
      have stays : e.current = c.current := after.first.current.trans abreast.first.current.symm
      refine goesOn (stays ▸ heeds answer) acted' (.of_level after abreast.within) ?_
      split
      · exact near
      · next sharp' =>
        have other : i + distance ≠ x.size := by
          intro place
          obtain ⟨_, again, -⟩ := abreast.first.act_peek depth
            (Cursor.Walks.limit_of_act_peek acted)
          cases acted.symm.trans again
          exact sharp' (place ▸ x.blunt)
        omega
    | shift =>
      rcases Nat.lt_or_eq_of_le abreast.within with inside | rfl
      · obtain ⟨e', acted', after⟩ := abreast.act_shift inside acted
        exact goesOn ((heeds answer).2 _) acted' after (.inl rfl)
      · refine .inr (.shift abreast (fun strict stage opens => ?_) acted later)
        exact (heeds answer).1 strict stage (abreast.first.current ▸ opens)
    | call rule =>
      rcases rules rule i c c' e answer abreast acted with ⟨j, e', acted', after⟩ | ⟨j, past, after⟩
      · exact goesOn ((heeds answer).2 _) acted' after (.inl rfl)
      · exact .inr (.call abreast acted after past (heeds answer).1 later)
    | _ => contradiction

/-- What takes the blunt token stays behind it. -/
theorem Crosses.past (crosses : x.Crosses strict depth start a d p c c') :
    ∃ j, x.size < j ∧ d.Walks x.short j := by
  induction crosses with
  | shift abreast _ acted ran =>
    obtain ⟨_, again, after, -⟩ := abreast.first.act_shift depth
    cases acted.symm.trans again
    obtain ⟨j, final, le⟩ := Parse.advances x.ends after ran
    exact ⟨j, le, final⟩
  | call _ _ walks past _ ran =>
    obtain ⟨j, final, le⟩ := Parse.advances x.ends walks ran
    exact ⟨j, Nat.lt_of_lt_of_le past le, final⟩
  | later _ _ _ ih => exact ih

theorem looseRules (x : Verge) (depth : Nat) : x.LooseRules depth := by
  induction depth with
  | zero => exact fun _ _ _ _ _ _ _ ran => nomatch ran
  | succ depth ih =>
    intro y rule i c c' d a abreast ran
    have goes := keeps_or_crosses ih c'.point (rule.body_heeds _) abreast (.inl rfl) ran
    exact goes.imp_right Crosses.past

end Verge
end ScriptSyntax
