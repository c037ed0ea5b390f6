import ScriptSyntax.Proofs.Enclosure.Closing
import ScriptSyntax.Proofs.Enclosure.Peeking
import ScriptSyntax.Proofs.Extension.Fork

/-! Runs on a source where a `;` follows and on one where a `)` does. They keep abreast up to there.
What is called with other ends than these comes to the `;` only to go past it or to fail. -/
namespace ScriptSyntax

open Cursor (Outcome)

/-- What ends with a token of its own has gone on by that token. -/
theorem Parse.Closing.advances {α : Type} {tokens : Nat → Token} {n i depth : Nat} {start : Point}
    {c d : Cursor} {sure : Bool} {a : α} {p : Parse α} {post : α → Bool → Prop}
    (closing : p.Closing sure post) (rules : Advances tokens n depth) (walks : c.Walks tokens i)
    (ran : p.exec (Rule.run depth) start c = some (.ok a, d)) :
    ∃ j sure', d.Walks tokens j ∧ post a sure' ∧ i ≤ j ∧
      (sure' = true → sure = true ∨ i < j) := by
  induction p generalizing sure c i with
  | done b =>
    cases ran
    exact ⟨i, sure, walks, closing, Nat.le_refl i, .inl⟩
  | fail blame fault => cases blame <;> cases ran
  | step action next ih =>
    obtain ⟨answer, e, acted, ran⟩ := exec_step_ok.mp ran
    -- What is looked at or called leaves nothing sure.
    have unsure {k : Nat} (closing : (next answer).Closing false post) (le : i ≤ k)
        (between : e.Walks tokens k) : ∃ j sure', d.Walks tokens j ∧ post a sure' ∧ i ≤ j ∧
          (sure' = true → sure = true ∨ i < j) := by
      obtain ⟨j, sure', final, holds, le', further⟩ := ih answer closing between ran
      refine ⟨j, sure', final, holds, Nat.le_trans le le', fun found => .inr ?_⟩
      have := (further found).resolve_left Bool.false_ne_true
      omega
    by_cases still : action.isStill = true
    · obtain ⟨_, _, again, after, -⟩ := walks.act_still depth still
      cases acted.symm.trans again
      cases action with
      | peek _ | shift | call _ => contradiction
      | current => exact unsure (closing answer) (Nat.le_refl i) after
      | _ => exact ih answer (closing answer) after ran
    cases action with
    | peek distance =>
      obtain ⟨_, again, after, -⟩ := walks.act_peek depth (Cursor.Walks.limit_of_act_peek acted)
      cases acted.symm.trans again
      exact unsure (closing _) (Nat.le_refl i) after
    | shift =>
      obtain ⟨_, again, after, -⟩ := walks.act_shift depth
      cases acted.symm.trans again
      obtain ⟨j, sure', final, holds, le, -⟩ := ih _ (closing _) after ran
      exact ⟨j, sure', final, holds, by omega, fun _ => .inr le⟩
    | call rule =>
      obtain ⟨k, between, le, -⟩ := rules rule c e i answer walks acted
      exact unsure (closing answer) le between
    | _ => contradiction

/-- No run goes back. -/
theorem Parse.advances {α : Type} {tokens : Nat → Token} {n i depth : Nat} {start : Point}
    {c d : Cursor} {a : α} {p : Parse α} (ends : EndsAt tokens n) (walks : c.Walks tokens i)
    (ran : p.exec (Rule.run depth) start c = some (.ok a, d)) : ∃ j, d.Walks tokens j ∧ i ≤ j := by
  have closing : p.Closing true fun _ _ => True := by simp
  obtain ⟨j, -, final, -, le, -⟩ := closing.advances (ScriptSyntax.advances ends depth) walks ran
  exact ⟨j, final, le⟩

/-- A source where a `;` follows and then the end of input, and one where a `)` follows. -/
structure Enclosure extends Fork where
  ends : EndsAt short (size + 1)
  stop : (short size).kind = .eol
  close : (long size).kind = .parClose

namespace Enclosure

variable {α : Type} (x : Enclosure) {i seen depth : Nat} {start start' : Point}
  {c c' d : Cursor} {sure : Bool} {a : α} {p : Parse α}

/-- Rules that calls nest under up to the depth keep abreast, or come to the `;`. -/
def LooseRules (depth : Nat) : Prop :=
  ∀ {y : Yield} (rule : Rule y) (i : Nat) (c c' d : Cursor) (a : y.Value), x.Abreast i c c' →
    rule.run depth c = some (.ok a, d) →
    x.Keeps (rule.run depth c') a d ∨ ∃ j, x.size ≤ j ∧ d.Walks x.short j

/-- Parses that keep abreast, or come to the `;`. -/
def Loose (depth : Nat) (p : Parse α) : Prop :=
  ∀ (i : Nat) (start start' : Point) (c c' d : Cursor) (a : α), x.Abreast i c c' →
    p.exec (Rule.run depth) start c = some (.ok a, d) →
    x.Keeps (p.exec (Rule.run depth) start' c') a d ∨ ∃ j, x.size ≤ j ∧ d.Walks x.short j

variable {x}

/-- What takes a token last keeps abreast, or goes past the `;`. -/
theorem keeps_or_past {post : α → Bool → Prop} (rules : x.LooseRules depth)
    (peeks : p.Peeks seen fun _ _ => True) (closing : p.Closing sure post)
    (abreast : x.Abreast i c c') (near : seen = 0 ∨ i + seen < x.size)
    (ran : p.exec (Rule.run depth) start c = some (.ok a, d)) :
    x.Keeps (p.exec (Rule.run depth) start' c') a d ∨
      ∃ j sure', d.Walks x.short j ∧ post a sure' ∧ x.size ≤ j ∧ (sure' = true → x.size < j) := by
  -- From the `;` on there is nothing to compare.
  have past {q : Parse α} {i : Nat} {c : Cursor} (closing : q.Closing false post)
      (walks : c.Walks x.short i) (far : x.size ≤ i)
      (ran : q.exec (Rule.run depth) start c = some (.ok a, d)) :
      ∃ j sure', d.Walks x.short j ∧ post a sure' ∧ x.size ≤ j ∧ (sure' = true → x.size < j) := by
    obtain ⟨j, sure', final, holds, le, further⟩ :=
      closing.advances (advances x.ends depth) walks ran
    refine ⟨j, sure', final, holds, Nat.le_trans far le, fun found => ?_⟩
    have := (further found).resolve_left Bool.false_ne_true
    omega
  induction p generalizing seen sure i c c' with
  | done b =>
    cases ran
    exact .inl ⟨i, c', rfl, abreast⟩
  | fail blame fault => cases blame <;> cases ran
  | step action next ih =>
    obtain ⟨answer, e, acted, later⟩ := Parse.exec_step_ok.mp ran
    -- A run that goes on abreast, which is what it was before the action.
    have goesOn {j seen : Nat} {sure : Bool} {e' : Cursor}
        (peeks : (next answer).Peeks seen fun _ _ => True)
        (closing : (next answer).Closing sure post)
        (acted' : Parse.act (Rule.run depth) action c' = some (.ok answer, e'))
        (abreast : x.Abreast j e e') (near : seen = 0 ∨ j + seen < x.size) :
        x.Keeps ((Parse.step action next).exec (Rule.run depth) start' c') a d ∨
          ∃ j sure', d.Walks x.short j ∧ post a sure' ∧ x.size ≤ j ∧
            (sure' = true → x.size < j) := by
      rw [Parse.exec, acted']
      exact ih answer peeks closing abreast near later
    have alongside (still : action.isStill = true) (other : action ≠ .current) :=
      abreast.act_still still (fun same => absurd same other) acted
    cases action with
    | current =>
      cases acted
      rcases Nat.lt_or_ge i x.size with inside | outside
      · exact goesOn (peeks _) (closing _) (by rw [Parse.act, abreast.current inside]) abreast near
      · exact .inr (past (closing _) abreast.first outside later)
    | peek distance =>
      have within := Cursor.Walks.limit_of_act_peek acted
      obtain ⟨_, again, after, arena⟩ := abreast.first.act_peek depth within
      obtain ⟨close, same, later'⟩ := peeks
      rcases Nat.lt_or_ge (i + distance) x.size with inside | outside
      · obtain ⟨e', acted', after'⟩ := abreast.act_peek inside acted
        refine goesOn (later' answer) (closing answer) acted' after' ?_
        split <;> omega
      cases acted.symm.trans again
      rcases Nat.lt_or_ge i x.size with inside | behind
      · have place : i + distance = x.size := by omega
        obtain ⟨e', acted', after', arena'⟩ := abreast.second.act_peek depth within
        rw [place, x.close] at acted'
        rw [Parse.exec, acted']
        simp only [place, x.stop] at later
        dsimp only
        rw [← same]
        refine ih .eol (later' .eol) (closing .eol)
          ⟨after, after', abreast.within, by rw [arena, arena', abreast.arena]⟩ ?_ later
        simpa using near
      · exact .inr (past (closing _) after behind later)
    | shift =>
      rcases Nat.lt_or_ge i x.size with inside | outside
      · obtain ⟨e', acted', after⟩ := abreast.act_shift inside acted
        exact goesOn (peeks answer) (closing answer) acted' after (.inl rfl)
      · obtain ⟨_, again, after, -⟩ := abreast.first.act_shift depth
        cases acted.symm.trans again
        obtain ⟨j, sure', final, holds, le, -⟩ :=
          (closing _).advances (advances x.ends depth) after later
        exact .inr ⟨j, sure', final, holds, by omega, fun _ => by omega⟩
    | call rule =>
      rcases rules rule i c c' e answer abreast acted with ⟨j, e', acted', after⟩ | ⟨j, far, after⟩
      · exact goesOn (peeks answer) (closing answer) acted' after (.inl rfl)
      · exact .inr (past (closing answer) after far later)
    | _ =>
      obtain ⟨e', acted', after⟩ := alongside rfl (by simp)
      exact goesOn (peeks answer) (closing answer) acted' after near

theorem looseRules (x : Enclosure) (depth : Nat) : x.LooseRules depth := by
  induction depth with
  | zero => exact fun _ _ _ _ _ _ _ ran => nomatch ran
  | succ depth ih =>
    intro y rule i c c' d a abreast ran
    have trivially : rule.body.Closing true fun _ _ => True := by simp
    refine (keeps_or_past ih rule.body_peeks trivially abreast (.inl rfl) ran).imp_right ?_
    rintro ⟨j, -, final, -, far, -⟩
    exact ⟨j, far, final⟩

theorem Loose.of_peeks (peeks : p.Peeks 0 fun _ _ => True) : x.Loose depth p := by
  intro i start start' c c' d a abreast ran
  have trivially : p.Closing true fun _ _ => True := by simp
  refine (keeps_or_past (x.looseRules depth) peeks trivially abreast (.inl rfl) ran).imp_right ?_
  rintro ⟨j, -, final, -, far, -⟩
  exact ⟨j, far, final⟩

end Enclosure
end ScriptSyntax
