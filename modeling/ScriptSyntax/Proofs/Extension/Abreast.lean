import ScriptSyntax.Proofs.Extension.Fork

/-! Runs on a source and on one that goes on where it ends. They keep abreast until the first comes
to its end. A run is firm if it gives the same on both even there. -/
namespace ScriptSyntax

open Cursor (Outcome)

/-- A source that ends, and one that begins with its tokens. It goes on with nothing that a finished
directive may take. -/
structure Extension extends Fork where
  ends : EndsAt short size
  apart : (long size).kind ∉ [.elseKw, .catchKw]

namespace Extension

variable {α β : Type} (x : Extension) {i rank depth : Nat} {start start' : Point} {c c' d : Cursor}
  {a : α} {p : Parse α}

/-- Parses that keep abreast from a place on, where they succeed on the shorter source. -/
def FirmAt (depth i : Nat) (p : Parse α) : Prop :=
  ∀ (start start' : Point) (c c' d : Cursor) (a : α), x.Abreast i c c' →
    p.exec (Rule.run depth) start c = some (.ok a, d) →
    x.Keeps (p.exec (Rule.run depth) start' c') a d

abbrev Firm (depth : Nat) (p : Parse α) : Prop := ∀ i, x.FirmAt depth i p

/-- Parses that keep abreast, or come to the end of the shorter source. -/
def Loose (depth : Nat) (p : Parse α) : Prop :=
  ∀ (i : Nat) (start start' : Point) (c c' d : Cursor) (a : α), x.Abreast i c c' →
    p.exec (Rule.run depth) start c = some (.ok a, d) →
    x.Keeps (p.exec (Rule.run depth) start' c') a d ∨ ∃ j, x.size ≤ j ∧ d.Walks x.short j

variable {x}

/-! Loose parses. All rules are loose, since what they owe is made up for. -/

/-- Rules that calls nest under up to the depth are loose. -/
def LooseRules (x : Extension) (depth : Nat) : Prop :=
  ∀ {y : Yield} (rule : Rule y) (i : Nat) (c c' d : Cursor) (a : y.Value), x.Abreast i c c' →
    rule.run depth c = some (.ok a, d) →
    x.Keeps (rule.run depth c') a d ∨ ∃ j, x.size ≤ j ∧ d.Walks x.short j

theorem loose_of_repays (rules : x.LooseRules depth) (repays : p.Repays 0 fun _ owed => owed = 0) :
    x.Loose depth p := by
  have forward : Advances x.short x.size depth := advances x.ends depth
  -- From the end on there is nothing to compare.
  have past {owed : Nat} {q : Parse α} (repays : q.Repays owed fun _ owed => owed = 0) {i : Nat}
      {start : Point} {c d : Cursor} {a : α} (walks : c.Walks x.short i) (far : x.size ≤ i + owed)
      (ran : q.exec (Rule.run depth) start c = some (.ok a, d)) :
      ∃ j, x.size ≤ j ∧ d.Walks x.short j := by
    obtain ⟨j, _, final, rfl, le⟩ := repays.advances forward walks ran
    exact ⟨j, Nat.le_trans far le, final⟩
  intro i start start' c c' d a abreast ran
  induction p generalizing i c c' with
  | done b =>
    cases ran
    exact .inl ⟨i, c', rfl, abreast⟩
  | fail blame fault => cases blame <;> cases ran
  | step action next ih =>
    rcases Nat.lt_or_ge i x.size with inside | outside
    case inr => exact .inr (past repays abreast.first outside ran)
    obtain ⟨answer, e, acted, later⟩ := Parse.exec_step_ok.mp ran
    -- A run that goes on abreast, which is what it was before the action.
    have goesOn {j : Nat} {e' : Cursor} (repays : (next answer).Repays 0 fun _ owed => owed = 0)
        (acted' : Parse.act (Rule.run depth) action c' = some (.ok answer, e'))
        (abreast : x.Abreast j e e') :
        x.Keeps ((Parse.step action next).exec (Rule.run depth) start' c') a d ∨
          ∃ j, x.size ≤ j ∧ d.Walks x.short j := by
      rw [Parse.exec, acted']
      exact ih answer repays j e e' abreast later
    by_cases still : action.isStill = true
    · obtain ⟨e', acted', after⟩ := abreast.act_still still (fun _ => inside) acted
      refine goesOn ?_ acted' after
      cases action with
      | peek _ | shift | call _ => contradiction
      | _ => exact repays answer
    cases action with
    | peek distance =>
      have within := Cursor.Walks.limit_of_act_peek acted
      obtain ⟨_, again, after, -⟩ := abreast.first.act_peek depth within
      have repays := repays answer
      rcases Nat.lt_or_ge (i + distance) x.size with near | far
      · have more : answer ≠ .eof := by
          cases acted.symm.trans again
          exact fun eof => absurd ((x.ends _).mp eof) (Nat.not_le_of_lt near)
        obtain ⟨e', acted', after⟩ := abreast.act_peek near acted
        rw [if_neg more] at repays
        exact goesOn repays acted' after
      · cases acted.symm.trans again
        rw [if_pos ((x.ends _).mpr far)] at repays
        exact .inr (past repays after (by omega) later)
    | shift =>
      obtain ⟨e', acted', after⟩ := abreast.act_shift inside acted
      exact goesOn (repays answer) acted' after
    | call rule =>
      have repays : (next answer).Repays 0 fun _ owed => owed = 0 := by
        simpa using repays answer
      rcases rules rule i c c' e answer abreast acted with ⟨j, e', acted', after⟩ | ⟨j, far, after⟩
      · exact goesOn repays acted' after
      · exact .inr (past repays after far later)
    | _ => contradiction

theorem looseRules (x : Extension) (depth : Nat) : x.LooseRules depth := by
  induction depth with
  | zero => exact fun _ _ _ _ _ _ _ ran => nomatch ran
  | succ depth ih =>
    intro y rule i c c' d a abreast ran
    exact loose_of_repays ih rule.body_repays i _ _ c c' d a abreast ran

theorem Loose.of_repays (repays : p.Repays 0 fun _ owed => owed = 0) : x.Loose depth p :=
  loose_of_repays (x.looseRules depth) repays

theorem Loose.of_sightless (blind : p.sightless = p) : x.Loose depth p :=
  .of_repays (.of_sightless blind)

/-! Firm parses. -/

variable {f : α → Parse β}

theorem firmAt_pure : x.FirmAt depth i (pure a : Parse α) := by
  rintro start start' c c' d _ abreast ⟨⟩
  exact ⟨i, c', rfl, abreast⟩

theorem firmAt_fail {blame : Blame} {fault : String → Fault} :
    x.FirmAt depth i (.fail blame fault : Parse α) := by
  intro start start' c c' d a abreast ran
  cases blame <;> cases ran

theorem FirmAt.bind (first : x.FirmAt depth i p) (rest : ∀ a, x.Firm depth (f a)) :
    x.FirmAt depth i (p >>= f) := by
  intro start start' c c' d b abreast ran
  obtain ⟨a, e, before, after⟩ := Parse.exec_bind_ok.mp ran
  obtain ⟨j, e', before', between⟩ := first start start' c c' e a abreast before
  obtain ⟨k, d', after', final⟩ := rest a j start start' e e' d b between after
  exact ⟨k, d', Parse.exec_bind_ok.mpr ⟨a, e', before', after'⟩, final⟩

theorem Firm.bind (first : x.Firm depth p) (rest : ∀ a, x.Firm depth (f a)) :
    x.Firm depth (p >>= f) :=
  fun i => (first i).bind rest

/-- Nothing that takes a token succeeds at the end. -/
theorem not_moves_at_end {j : Nat} {b : β} {q : Parse β} (walks : c.Walks x.short j)
    (past : x.size ≤ j) (moves : Parse.Moves q rank false .eof) :
    q.exec (Rule.run depth) start c ≠ some (.ok b, d) := by
  intro ran
  have eof : c.current.kind = .eof := by
    rw [walks.current]
    exact (x.ends j).mpr past
  obtain ⟨k, moved, -, rfl, -, further⟩ :=
    Parse.Proceeds.advances (eof ▸ moves) x.ends (advances x.ends depth) walks ran
  have := (further rfl).resolve_left nofun
  omega

theorem FirmAt.of_moves (rank : Nat) (moves : Parse.Moves p rank false .eof)
    (firm : i < x.size → x.FirmAt depth i p) : x.FirmAt depth i p := by
  rcases Nat.lt_or_ge i x.size with inside | outside
  · exact firm inside
  · intro start start' c c' d a abreast ran
    exact absurd ran (not_moves_at_end abreast.first outside moves)

/-- A loose parse is firm before what has to take a token. -/
theorem Loose.bind (rank : Nat) (first : x.Loose depth p)
    (moves : ∀ a, Parse.Moves (f a) rank false .eof)
    (rest : ∀ a, x.Firm depth (f a)) : x.Firm depth (p >>= f) := by
  intro i start start' c c' d b abreast ran
  obtain ⟨a, e, before, after⟩ := Parse.exec_bind_ok.mp ran
  rcases first i start start' c c' e a abreast before with
    ⟨j, e', before', between⟩ | ⟨j, past, walks⟩
  · obtain ⟨k, d', after', final⟩ := rest a j start start' e e' d b between after
    exact ⟨k, d', Parse.exec_bind_ok.mpr ⟨a, e', before', after'⟩, final⟩
  · exact absurd after (not_moves_at_end walks past (moves a))

theorem firm_still {action : Action} (still : action.isStill = true) (other : action ≠ .current) :
    x.Firm depth (Parse.perform action) := by
  intro i start start' c c' d answer abreast ran
  rw [Parse.exec_perform] at ran
  obtain ⟨d', acted', after⟩ := abreast.act_still still (fun same => absurd same other) ran
  exact ⟨i, d', (Parse.exec_perform action).trans acted', after⟩

theorem firmAt_current (inside : i < x.size) {f : Kind → Parse α}
    (rest : x.FirmAt depth i (f (x.short i).kind)) : x.FirmAt depth i (Parse.current >>= f) := by
  intro start start' c c' d a abreast ran
  have same := abreast.current inside
  have here := abreast.first.current
  have ran : (f c.current.kind).exec (Rule.run depth) start c = some (.ok a, d) := ran
  change x.Keeps ((f c'.current.kind).exec (Rule.run depth) start' c') a d
  rw [same, here]
  exact rest start start' c c' d a abreast (here ▸ ran)

/-- At the end it does not matter what stands there if it is not what is asked for. -/
theorem firmAt_current_of_eq (outside : ¬ i < x.size) {f : Kind → Parse α}
    (same : f (x.long x.size).kind = f .eof) (rest : x.FirmAt depth i (f .eof)) :
    x.FirmAt depth i (Parse.current >>= f) := by
  intro start start' c c' d a abreast ran
  have place : i = x.size := by
    have := abreast.within
    omega
  have eof : c.current.kind = .eof := by
    rw [abreast.first.current]
    exact (x.ends i).mpr (Nat.le_of_not_lt outside)
  have ran : (f c.current.kind).exec (Rule.run depth) start c = some (.ok a, d) := ran
  change x.Keeps ((f c'.current.kind).exec (Rule.run depth) start' c') a d
  rw [abreast.second.current, place, same]
  rw [eof] at ran
  exact rest start start' c c' d a abreast ran

theorem firmAt_shift (inside : i < x.size) : x.FirmAt depth i Parse.shift := by
  intro start start' c c' d t abreast ran
  rw [Parse.shift, Parse.exec_perform] at ran
  obtain ⟨d', acted', after⟩ := abreast.act_shift inside ran
  exact ⟨i + 1, d', (Parse.exec_perform .shift).trans acted', after⟩

end Extension
end ScriptSyntax
