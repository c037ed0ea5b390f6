import ScriptSyntax.Proofs.Calls.Total
import ScriptSyntax.Proofs.Progress.Lookahead

/-! How far a run gets among the tokens of a source. It never goes back, a rule that takes a token
moves on from a place before the end, and what is owed is made up for in places. -/
namespace ScriptSyntax

open Cursor (Outcome)

variable {α : Type} {tokens : Nat → Token} {n i rank owed depth distance : Nat} {start : Point}
  {c d : Cursor} {moved : Bool} {a : α} {p : Parse α}

/-- The end of input stands at the place, and there is nothing else after it. -/
def EndsAt (tokens : Nat → Token) (n : Nat) : Prop := ∀ i, (tokens i).kind = .eof ↔ n ≤ i

theorem EndsAt.lt (ends : EndsAt tokens n) (more : (tokens i).kind ≠ .eof) : i < n := by
  by_contra past
  exact more ((ends i).mpr (Nat.le_of_not_lt past))

/-- Tokens of the same kinds are as far from the end of input. -/
theorem EndsAt.eq_add {tokens' : Nat → Token} {j k : Nat} (ends : EndsAt tokens (i + k))
    (ends' : EndsAt tokens' n) (same : ∀ m, (tokens (i + m)).kind = (tokens' (j + m)).kind)
    (more : 0 < k) : n = j + k := by
  have stop : n ≤ j + k := (ends' _).mp (same k ▸ (ends _).mpr (Nat.le_refl _))
  have before : j + (k - 1) < n := by
    refine ends'.lt fun eof => ?_
    have := (ends _).mp ((same (k - 1)).trans eof)
    omega
  omega

theorem EndsAt.place_eq {j : Nat} (ends : EndsAt tokens n)
    (same : ∀ m, tokens (i + m) = tokens (j + m)) (inside : i < n) : i = j := by
  obtain ⟨k, rfl⟩ := Nat.exists_eq_add_of_lt inside
  have := @EndsAt.eq_add _ _ i _ j (k + 1) ends ends (fun m => congrArg _ (same m)) (Nat.succ_pos k)
  omega

theorem endsAt_of_tokens {ts : List Token} {last : Token} (more : ∀ t ∈ ts, t.kind ≠ .eof)
    (eof : last.kind = .eof) : EndsAt (fun n => ts[n]?.getD last) ts.length := by
  intro i
  rcases Nat.lt_or_ge i ts.length with inside | outside
  · simp [inside, more]
  · simp [outside, eof]

/-- Whether the action leaves the tokens alone and asks for none further on. -/
def Action.isStill : Action → Bool
  | peek _ | shift | call _ => false
  | _ => true

namespace Cursor.Walks

/-- An action that leaves the tokens alone succeeds where it is taken. -/
theorem act_still (walks : c.Walks tokens i) (depth : Nat) {action : Action}
    (still : action.isStill = true) :
    ∃ answer d, Parse.act (Rule.run depth) action c = some (.ok answer, d) ∧
      d.Walks tokens i ∧ d.current = c.current := by
  cases action with
  | settle id =>
    obtain ⟨current, pending, scanner, -⟩ := c.regroup_keeps id
    exact ⟨_, _, rfl, walks.stay scanner current pending, current⟩
  | peek _ | shift | call _ => contradiction
  | _ => exact ⟨_, _, rfl, walks.stay rfl rfl rfl, rfl⟩

theorem act_shift (walks : c.Walks tokens i) (depth : Nat) :
    ∃ d, Parse.act (Rule.run depth) .shift c = some (.ok (tokens i), d) ∧
      d.Walks tokens (i + 1) ∧ d.arena = c.arena := by
  obtain ⟨d, shifted, after, arena⟩ := walks.shift
  exact ⟨d, by rw [Parse.act, shifted], after, arena⟩

theorem act_peek (walks : c.Walks tokens i) (depth : Nat)
    (within : 0 < distance ∧ distance ≤ maxLookahead) :
    ∃ d, Parse.act (Rule.run depth) (.peek distance) c =
        some (.ok (tokens (i + distance)).kind, d) ∧
      d.Walks tokens i ∧ d.arena = c.arena := by
  obtain ⟨d, peeked, after, arena⟩ := walks.peek within
  exact ⟨d, by rw [Parse.act, peeked]; rfl, after, arena⟩

/-- Nothing is found farther ahead than the limit. -/
theorem limit_of_act_peek {answer : Kind}
    (ran : Parse.act (Rule.run depth) (.peek distance) c = some (.ok answer, d)) :
    0 < distance ∧ distance ≤ maxLookahead := by
  by_contra outside
  rw [Parse.act, Cursor.peek, if_pos (by omega)] at ran
  simp [Except.map] at ran

end Cursor.Walks

/-- Rules that calls nest under up to the depth go forward. -/
def Advances (tokens : Nat → Token) (n depth : Nat) : Prop :=
  ∀ {y : Yield} (rule : Rule y) (c d : Cursor) (i : Nat) (a : y.Value), c.Walks tokens i →
    rule.run depth c = some (.ok a, d) →
    ∃ j, d.Walks tokens j ∧ i ≤ j ∧ (rule.moves = true → i < j ∧ i < n)

theorem Parse.Proceeds.advances {post : α → Bool → Kind → Prop}
    (walk : p.Proceeds rank moved c.current.kind post) (ends : EndsAt tokens n)
    (rules : Advances tokens n depth) (walks : c.Walks tokens i)
    (ran : p.exec (Rule.run depth) start c = some (.ok a, d)) :
    ∃ j moved', d.Walks tokens j ∧ post a moved' d.current.kind ∧ i ≤ j ∧
      (moved' = true → moved = true ∨ i < j ∧ i < n) := by
  induction p generalizing moved c i with
  | done b =>
    cases ran
    exact ⟨i, moved, walks, walk, Nat.le_refl i, .inl⟩
  | fail blame fault => cases blame <;> cases ran
  | step action next ih =>
    obtain ⟨answer, c', acted, ran⟩ := exec_step_ok.mp ran
    by_cases still : action.isStill = true
    · obtain ⟨_, _, again, after, same⟩ := walks.act_still depth still
      cases acted.symm.trans again
      refine ih answer ?_ after ran
      rw [same]
      cases action with
      | peek _ | shift | call _ => contradiction
      | current =>
        cases acted
        exact walk
      | _ => exact walk answer
    cases action with
    | peek distance =>
      obtain ⟨_, again, after, -⟩ := walks.act_peek depth walk.1
      cases acted.symm.trans again
      refine ih _ ?_ after ran
      rw [after.current, ← walks.current]
      exact walk.2 _
    | shift =>
      obtain ⟨_, again, after, -⟩ := walks.act_shift depth
      cases acted.symm.trans again
      obtain ⟨j, moved', final, holds, le, -⟩ := ih _ (walk.2 _ _) after ran
      exact ⟨j, moved', final, holds, by omega,
        fun _ => .inr ⟨le, ends.lt (walks.current ▸ walk.1)⟩⟩
    | call rule =>
      obtain ⟨k, between, le, moves⟩ := rules rule c c' i answer walks acted
      obtain ⟨j, moved', final, holds, le', after⟩ := ih answer (walk.2 answer _) between ran
      refine ⟨j, moved', final, holds, by omega, fun taken => ?_⟩
      rcases after taken with before | further
      · rcases Bool.or_eq_true_iff.mp before with before | here
        · exact .inl before
        · have := moves here
          exact .inr (by omega)
      · exact .inr (by omega)
    | _ => contradiction

/-- Every rule goes forward. -/
theorem advances (ends : EndsAt tokens n) (depth : Nat) : Advances tokens n depth := by
  induction depth with
  | zero => exact fun _ _ _ _ _ _ ran => nomatch ran
  | succ depth ih =>
    intro y rule c d i a walks ran
    obtain ⟨j, moved, final, taken, le, moves⟩ :=
      (rule.body_proceeds c.current.kind).advances ends ih walks ran
    exact ⟨j, final, le, fun needed => (moves (taken needed)).resolve_left nofun⟩

/-- A run that ends well has come as far as it owes. -/
theorem Parse.Repays.advances {post : α → Nat → Prop} (repays : p.Repays owed post)
    (rules : Advances tokens n depth) (walks : c.Walks tokens i)
    (ran : p.exec (Rule.run depth) start c = some (.ok a, d)) :
    ∃ j owed', d.Walks tokens j ∧ post a owed' ∧ i + owed ≤ j + owed' := by
  induction p generalizing owed c i with
  | done b =>
    cases ran
    exact ⟨i, owed, walks, repays, Nat.le_refl _⟩
  | fail blame fault => cases blame <;> cases ran
  | step action next ih =>
    obtain ⟨answer, c', acted, ran⟩ := exec_step_ok.mp ran
    by_cases still : action.isStill = true
    · obtain ⟨_, _, again, after, -⟩ := walks.act_still depth still
      cases acted.symm.trans again
      refine ih answer ?_ after ran
      cases action with
      | peek _ | shift | call _ => contradiction
      | _ => exact repays answer
    cases action with
    | peek distance =>
      have within := Cursor.Walks.limit_of_act_peek acted
      obtain ⟨_, again, after, -⟩ := walks.act_peek depth within
      cases acted.symm.trans again
      obtain ⟨j, owed', final, holds, far⟩ := ih _ (repays _) after ran
      refine ⟨j, owed', final, holds, Nat.le_trans (Nat.add_le_add_left ?_ i) far⟩
      split
      · exact Nat.le_max_left ..
      · exact Nat.le_refl owed
    | shift =>
      obtain ⟨_, again, after, -⟩ := walks.act_shift depth
      cases acted.symm.trans again
      obtain ⟨j, owed', final, holds, far⟩ := ih _ (repays _) after ran
      exact ⟨j, owed', final, holds, by omega⟩
    | call rule =>
      obtain ⟨k, between, le, moves⟩ := rules rule c c' i answer walks acted
      obtain ⟨j, owed', final, holds, far⟩ := ih answer (repays answer) between ran
      refine ⟨j, owed', final, holds, ?_⟩
      cases needed : rule.moves with
      | false =>
        rw [needed, Bool.toNat_false] at far
        omega
      | true =>
        rw [needed, Bool.toNat_true] at far
        have := moves needed
        omega
    | _ => contradiction

end ScriptSyntax
