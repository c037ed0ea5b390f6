import ScriptSyntax.Proofs.Progress.Grammar
import ScriptSyntax.Proofs.Progress.Taking

/-! The tokens that a run takes, told of runs that fail as well, and of any cursor. None of them is
the end of input. What is left of the source shrinks by as many, so every run ends. -/
namespace ScriptSyntax

open Cursor (Outcome)

namespace Parse

/-- The tokens that an action takes, given those that rules take. -/
def spent (records : {y : Yield} → Rule y → Cursor → List Token) : Action → Cursor → List Token
  | .shift, c => c.shift.1.toOption.toList
  | .call rule, c => records rule c
  | _, _ => []

/-- The tokens that a parse takes in its run, given how rules are run and what these take. -/
def consumed {α : Type} (rules : {y : Yield} → Rule y → Cursor → Option (Outcome y.Value))
    (records : {y : Yield} → Rule y → Cursor → List Token) : Parse α → Cursor → List Token
  | done _, _ => []
  | fail _ _, _ => []
  | step action next, c => spent records action c ++
      match act rules action c with
      | some (.ok answer, c) => (next answer).consumed rules records c
      | _ => []

end Parse

/-- The tokens that a rule takes where calls may nest up to a depth, those of the calls included. -/
def Rule.consumed : Nat → {y : Yield} → Rule y → Cursor → List Token
  | 0, _, _, _ => []
  | depth + 1, _, rule, c => rule.body.consumed (Rule.run depth) (Rule.consumed depth) c

/-- The tokens that a parse takes when it is run at the cursor. -/
def Cursor.consumed {α : Type} (c : Cursor) (p : Parse α) : List Token :=
  p.consumed (Rule.run c.depth) (Rule.consumed c.depth) c

/-- The run takes the tokens `ts` from the cursor on, none of them the end of input. If it succeeds
it comes to stand behind them, as described. -/
structure Spends {α : Type} (c : Cursor) (ts : List Token) (run : Option (Outcome α))
    (post : α → Cursor → Prop) : Prop where
  ahead : c.Faces ts
  more : ∀ t ∈ ts, t.kind ≠ .eof
  behind : ∀ a d, run = some (.ok a, d) → c.Takes ts d ∧ post a d

variable {α : Type} {c d : Cursor} {ts us : List Token} {a : α} {p : Parse α}
  {depth rank bound : Nat} {start : Point} {moved : Bool}

namespace Spends

variable {run : Option (Outcome α)} {post post' : α → Cursor → Prop}

theorem imp (spends : Spends c ts run post) (weaken : ∀ a d, post a d → post' a d) :
    Spends c ts run post' :=
  ⟨spends.ahead, spends.more, fun a d ran => (spends.behind a d ran).imp_right (weaken a d)⟩

/-- A run that takes nothing. -/
theorem nothing (behind : ∀ a d, run = some (.ok a, d) → c.Takes [] d ∧ post a d) :
    Spends c [] run post :=
  ⟨c.faces_nil, List.forall_mem_nil _, behind⟩

/-- A run that fails where an earlier one ends has taken what that one took. -/
theorem failed {β : Type} {run' : Option (Outcome β)} {post' : β → Cursor → Prop}
    (spends : Spends c ts run post) (fails : ∀ b d, run' ≠ some (.ok b, d)) :
    Spends c (ts ++ []) run' post' := by
  rw [List.append_nil]
  exact ⟨spends.ahead, spends.more, fun b d ran => absurd ran (fails b d)⟩

/-- What is left over is less by all the tokens that were taken. -/
theorem left_le (spends : Spends c ts run post) (ran : run = some (.ok a, d)) :
    d.left + ts.length ≤ c.left :=
  proper_eq_length spends.more ▸ (spends.behind a d ran).1.left_le

end Spends

/-- The rules take what lies ahead, with calls nested up to the depth, and no end of input. -/
def Thrifty (depth : Nat) : Prop :=
  ∀ {y : Yield} (rule : Rule y) (c : Cursor), Spends c (rule.consumed depth c) (rule.run depth c)
    fun _ _ => rule.moves = true → rule.consumed depth c ≠ []

namespace Parse

/-- Whether a token was taken is known of two stretches where it is known of each. -/
theorem moved_append {moved' moved'' : Bool} (before : moved' = true → moved = true ∨ ts ≠ [])
    (after : moved'' = true → moved' = true ∨ us ≠ []) (made : moved'' = true) :
    moved = true ∨ ts ++ us ≠ [] := by
  rcases after made with early | late
  · exact (before early).imp_right fun some => List.append_ne_nil_of_left_ne_nil some _
  · exact .inr (List.append_ne_nil_of_right_ne_nil _ late)

/-- One action of a parse that makes progress. -/
theorem Proceeds.act_spends {action : Action} {next : action.Answer → Parse α}
    {post : α → Bool → Kind → Prop}
    (walk : (step action next).Proceeds rank moved c.current.kind post) (rules : Thrifty depth) :
    Spends c (spent (Rule.consumed depth) action c) (act (Rule.run depth) action c) fun answer d =>
      ∃ moved', (next answer).Proceeds rank moved' d.current.kind post ∧
        (moved' = true → moved = true ∨ spent (Rule.consumed depth) action c ≠ []) := by
  cases action with
  | current =>
    refine .nothing fun k d ran => ?_
    cases ran
    exact ⟨.refl c, moved, walk, .inl⟩
  | peek distance =>
    refine .nothing fun k d ran => ?_
    rw [act] at ran
    rcases peeked : c.peek distance with ⟨e | t, d'⟩ <;> rw [peeked] at ran <;> cases ran
    have same := congrArg Token.kind (Cursor.peek_ok peeked).1
    exact ⟨.of_peek peeked, moved, same ▸ walk.2 _, .inl⟩
  | shift =>
    rcases shifted : c.shift with ⟨e | t, d⟩
    · have none : spent (Rule.consumed depth) .shift c = [] := by
        simp [spent, shifted, Except.toOption]
      rw [none]
      exact .nothing fun t d ran => by simp [act, shifted] at ran
    · obtain ⟨rfl, takes⟩ := Cursor.Takes.of_shift shifted
      have one : spent (Rule.consumed depth) .shift c = [c.current] := by
        simp [spent, shifted, Except.toOption]
      rw [one]
      refine ⟨takes.ahead, by simpa using walk.1, fun t d' ran => ?_⟩
      obtain ⟨rfl, rfl⟩ : c.current = t ∧ d = d' := by simpa [act, shifted] using ran
      exact ⟨takes, true, walk.2 _ _, fun _ => .inr (List.cons_ne_nil _ _)⟩
  | call rule =>
    refine (rules rule c).imp fun a d taken => ⟨_, walk.2 a _, fun made => ?_⟩
    exact (Bool.or_eq_true_iff.mp made).imp_right taken
  | settle id =>
    obtain ⟨current, pending, scanner, -⟩ := c.regroup_keeps id
    refine .nothing fun top d ran => ?_
    have same : d.current = c.current := by
      cases ran
      exact current
    have still : c.Takes [] d := by
      cases ran
      exact .of_still scanner current pending
    exact ⟨still, moved, same ▸ walk top, .inl⟩
  | add | inspect | freeze | announce =>
    refine .nothing fun answer d ran => ?_
    cases ran
    exact ⟨.refl c, moved, walk _, .inl⟩

/-- A run of a parse that makes progress. -/
theorem Proceeds.spends {post : α → Bool → Kind → Prop}
    (walk : p.Proceeds rank moved c.current.kind post) (rules : Thrifty depth) :
    Spends c (p.consumed (Rule.run depth) (Rule.consumed depth) c)
      (p.exec (Rule.run depth) start c) fun a d => ∃ moved', post a moved' d.current.kind ∧
        (moved' = true →
          moved = true ∨ p.consumed (Rule.run depth) (Rule.consumed depth) c ≠ []) := by
  induction p generalizing moved c with
  | done b =>
    refine .nothing fun a d ran => ?_
    cases ran
    exact ⟨.refl c, moved, walk, .inl⟩
  | fail blame fault =>
    refine .nothing fun a d ran => ?_
    cases blame <;> cases ran
  | step action next ih =>
    have first := walk.act_spends rules
    rw [consumed, exec]
    rcases acted : act (Rule.run depth) action c with - | ⟨e | answer, c'⟩
    · exact first.failed (by simp)
    · exact first.failed (by simp)
    obtain ⟨takes, moved', walk', before⟩ := first.behind answer c' acted
    have rest := ih answer walk'
    refine ⟨takes.faces_append rest.ahead,
      List.forall_mem_append.mpr ⟨first.more, rest.more⟩, fun a d ran => ?_⟩
    obtain ⟨takes', moved'', holds, after⟩ := rest.behind a d ran
    exact ⟨takes.trans takes', moved'', holds, moved_append before after⟩

end Parse

theorem thrifty (depth : Nat) : Thrifty depth := by
  induction depth with
  | zero =>
    refine fun _ _ => .nothing fun _ _ ran => ?_
    cases ran
  | succ depth ih =>
    intro y rule c
    refine ((rule.body_proceeds c.current.kind).spends ih).imp ?_
    rintro a d ⟨moved, taken, made⟩ moves
    exact (made (taken moves)).resolve_left Bool.false_ne_true

/-- The rules end, with calls nested up to the depth, wherever it allows for what is left. -/
def Ample (depth : Nat) : Prop :=
  ∀ {y : Yield} (rule : Rule y) (c : Cursor), 4 * c.left + rule.rank < depth →
    (rule.run depth c).isSome = true

theorem Parse.Proceeds.isSome_exec {post : α → Bool → Kind → Prop}
    (walk : p.Proceeds rank moved c.current.kind post) (rules : Ample depth)
    (budget : c.left + moved.toNat ≤ bound) (deep : 4 * bound + rank ≤ depth) :
    (p.exec (Rule.run depth) start c).isSome = true := by
  induction p generalizing moved c with
  | done a => rfl
  | fail blame fault => cases blame <;> rfl
  | step action next ih =>
    -- Each token that was taken pays for four more levels, which is more than any rank asks for.
    have acts : (act (Rule.run depth) action c).isSome = true := by
      cases action with
      | call rule =>
        refine rules rule c ?_
        have := rule.rank_le
        rcases walk.1 with rfl | below
        · simp only [Bool.toNat_true] at budget
          omega
        · omega
      | _ => rfl
    have first := walk.act_spends (thrifty depth)
    rw [exec]
    rcases acted : act (Rule.run depth) action c with - | ⟨e | answer, c'⟩
    · simp [acted] at acts
    · rfl
    obtain ⟨-, moved', walk', made⟩ := first.behind answer c' acted
    have fewer := first.left_le acted
    refine ih answer walk' ?_
    cases moved' with
    | false =>
      simp only [Bool.toNat_false]
      omega
    | true =>
      rcases made rfl with rfl | some
      · simp only [Bool.toNat_true] at budget ⊢
        omega
      · have := List.length_pos_iff.mpr some
        simp only [Bool.toNat_true]
        omega

theorem ample (depth : Nat) : Ample depth := by
  induction depth with
  | zero => exact fun _ _ below => absurd below (Nat.not_lt_zero _)
  | succ depth ih =>
    intro y rule c below
    exact (rule.body_proceeds c.current.kind).isSome_exec ih (Nat.le_refl c.left) (by omega)

/-! Runs under way. -/

namespace Parse

/-- The run of a parse from the cursor `c` takes the tokens `ts`, and then goes on with the parse
`q` at the cursor `d`. -/
inductive Comes (depth : Nat) {α : Type} : Parse α → Cursor → List Token → Parse α → Cursor → Prop
  where
  | here {p : Parse α} {c : Cursor} : Comes depth p c [] p c
  | later {action : Action} {next : action.Answer → Parse α} {answer : action.Answer}
      {c c' d : Cursor} {ts : List Token} {q : Parse α}
      (acted : act (Rule.run depth) action c = some (.ok answer, c'))
      (comes : Comes depth (next answer) c' ts q d) :
      Comes depth (step action next) c (spent (Rule.consumed depth) action c ++ ts) q d

/-- What is left of a parse that makes progress makes progress too. -/
theorem Proceeds.comes {q : Parse α} {post : α → Bool → Kind → Prop}
    (walk : p.Proceeds rank moved c.current.kind post) (comes : p.Comes depth c ts q d) :
    c.Takes ts d ∧ (∀ t ∈ ts, t.kind ≠ .eof) ∧
      ∃ moved', q.Proceeds rank moved' d.current.kind post ∧
        (moved' = true → moved = true ∨ ts ≠ []) := by
  induction comes generalizing moved with
  | here => exact ⟨.refl _, List.forall_mem_nil _, moved, walk, .inl⟩
  | later acted comes ih =>
    have first := walk.act_spends (thrifty depth)
    obtain ⟨takes, between, walk', before⟩ := first.behind _ _ acted
    obtain ⟨takes', more, moved', walk'', after⟩ := ih walk'
    exact ⟨takes.trans takes', List.forall_mem_append.mpr ⟨first.more, more⟩, moved', walk'',
      moved_append before after⟩

/-- A rule calls another one of its rank only after it has taken a token. -/
theorem Comes.taken {y z : Yield} {rule : Rule y} {called : Rule z} {rest : z.Value → Parse y.Value}
    (comes : rule.body.Comes depth c ts (step (.call called) rest) d)
    (level : called.rank = rule.rank) : c.Takes ts d ∧ (∀ t ∈ ts, t.kind ≠ .eof) ∧ ts ≠ [] := by
  obtain ⟨takes, more, moved, walk, made⟩ := (rule.body_proceeds c.current.kind).comes comes
  have first : moved = true := walk.1.resolve_right (by omega)
  exact ⟨takes, more, (made first).resolve_left Bool.false_ne_true⟩

end Parse

namespace Cursor

variable {post : α → Bool → Kind → Prop}

/-- A parse that makes progress ends wherever it is run, and a greater depth changes nothing. -/
theorem exec_eq_run (walk : p.Proceeds 4 false c.current.kind post) (le : c.depth ≤ depth) :
    p.exec (Rule.run depth) c.point c = some (c.run p) := by
  have few : proper (c.current :: c.pending) ≤ (c.current :: c.pending).length :=
    List.countP_le_length
  have ends : (p.exec (Rule.run c.depth) c.point c).isSome = true := by
    refine walk.isSome_exec (ample c.depth) (Nat.le_refl c.left) ?_
    simp only [List.length_cons] at few
    simp only [Cursor.depth, Cursor.remaining, Cursor.left]
    omega
  obtain ⟨r, ran⟩ := Option.isSome_iff_exists.mp ends
  rw [Cursor.run, ran, Option.getD_some]
  exact Parse.exec_of_le le ran

theorem spends_run (walk : p.Proceeds 4 false c.current.kind post) :
    Spends c (c.consumed p) (some (c.run p)) fun a d => ∃ moved, post a moved d.current.kind ∧
      (moved = true → c.consumed p ≠ []) := by
  rw [← exec_eq_run walk (Nat.le_refl c.depth)]
  refine (walk.spends (thrifty c.depth)).imp fun a d => ?_
  rintro ⟨moved, holds, made⟩
  exact ⟨moved, holds, fun taken => (made taken).resolve_left Bool.false_ne_true⟩

end Cursor
end ScriptSyntax
