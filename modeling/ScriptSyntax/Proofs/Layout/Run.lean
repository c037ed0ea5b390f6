import ScriptSyntax.Proofs.Layout.Cursor
import ScriptSyntax.Proofs.Layout.Grammar

/-! Runs on cursors that are alike. Parses which both come to one that takes no notice of where
things are agree, and so do the rules. -/
namespace ScriptSyntax

/-- Whether the action may pass on a token or an id. -/
def Action.passes : Action → Bool
  | current | peek _ | shift | announce => false
  | _ => true

namespace Parse

variable {α β : Type} {o : Nat} {g : α → β} {p : Parse α}

/-! What a parse is whose image is known. -/

theorem exists_done_of_map {b : β} (same : done b = g <$> p.lifted o) :
    ∃ a, p = done a ∧ b = g a := by
  cases p with
  | done a => exact ⟨a, rfl, done.inj same⟩
  | fail blame fault => cases same
  | step action next => cases action <;> cases same

theorem eq_fail_of_map {blame : Blame} {fault : String → Fault}
    (same : fail blame fault = g <$> p.lifted o) : p = fail blame fault := by
  cases p with
  | done a => cases same
  | fail blame' fault' =>
    cases same
    rfl
  | step action next => cases action <;> cases same

theorem exists_add_of_map {shape : Shape NodeId} {token : Option Token} {next : NodeId → Parse β}
    (same : step (.add shape token) next = g <$> p.lifted o) :
    ∃ shape' token' next', p = step (.add shape' token') next' ∧ shape = shape'.lifted o ∧
      token = token'.map Token.unplaced ∧ ∀ id, next id = g <$> (next' id).lifted o := by
  cases p with
  | done a => cases same
  | fail blame fault => cases same
  | step action next' =>
    cases action <;> cases same
    exact ⟨_, _, next', rfl, rfl, rfl, fun _ => rfl⟩

theorem exists_inspect_of_map {id : NodeId} {next : Profile → Parse β}
    (same : step (.inspect id) next = g <$> p.lifted o) :
    ∃ id' next', p = step (.inspect id') next' ∧ id = o + id' ∧
      ∀ profile, next profile = g <$> (next' profile).lifted o := by
  cases p with
  | done a => cases same
  | fail blame fault => cases same
  | step action next' =>
    cases action <;> cases same
    exact ⟨_, next', rfl, rfl, fun _ => rfl⟩

theorem exists_settle_of_map {id : NodeId} {next : NodeId → Parse β}
    (same : step (.settle id) next = g <$> p.lifted o) :
    ∃ id' next', p = step (.settle id') next' ∧ id = o + id' ∧
      ∀ top, next top = g <$> (next' top).lifted o := by
  cases p with
  | done a => cases same
  | fail blame fault => cases same
  | step action next' =>
    cases action <;> cases same
    exact ⟨_, next', rfl, rfl, fun _ => rfl⟩

theorem exists_freeze_of_map {id : NodeId} {next : Unit → Parse β}
    (same : step (.freeze id) next = g <$> p.lifted o) :
    ∃ id' next', p = step (.freeze id') next' ∧ id = o + id' ∧
      ∀ done, next done = g <$> (next' done).lifted o := by
  cases p with
  | done a => cases same
  | fail blame fault => cases same
  | step action next' =>
    cases action <;> cases same
    exact ⟨_, next', rfl, rfl, fun _ => rfl⟩

theorem exists_call_of_map {y : Yield} {rule : Rule y} {next : y.Value → Parse β}
    (same : step (.call rule) next = g <$> p.lifted o) :
    ∃ (rule' : Rule y) (next' : y.Value → Parse α), p = step (.call rule') next' ∧
      rule = rule'.lifted o ∧ ∀ a, next a = g <$> (next' a).lifted o := by
  cases p with
  | done a => cases same
  | fail blame fault => cases same
  | step action next' =>
    cases action <;> cases same
    exact ⟨_, next', rfl, rfl, fun _ => rfl⟩

theorem exists_step_of_map {action : Action} {next : action.Answer → Parse β}
    (plain : action.passes = false) (same : step action next = g <$> p.lifted o) :
    ∃ next', p = step action next' ∧ ∀ a, next a = g <$> (next' a).lifted o := by
  cases p with
  | done a => cases same
  | fail blame fault => cases same
  | step action' next' =>
    cases action' <;> cases same <;> first | contradiction | exact ⟨next', rfl, fun _ => rfl⟩

end Parse

open Cursor (Alike Outcome)

/-- Runs that both do not end, or end in outcomes that agree. -/
abbrev Concur {α β : Type} (base : Arena) (R : α → β → Prop) :
    Option (Outcome α) → Option (Outcome β) → Prop :=
  Option.Rel (Outcome.Agree base R)

variable {α β γ : Type} {base : Arena} {R : α → β → Prop} {depth : Nat} {start start' : Point}
  {c c' : Cursor}

/-- Actions that concur, and then what follows them. -/
theorem Concur.step {action action' : Action} {next : action.Answer → Parse α}
    {next' : action'.Answer → Parse β} {S : action.Answer → action'.Answer → Prop}
    (first : Concur base S (Parse.act (Rule.run depth) action c)
      (Parse.act (Rule.run depth) action' c'))
    (rest : ∀ a b d d', Parse.act (Rule.run depth) action c = some (.ok a, d) → S a b →
      Alike base d d' → Concur base R ((next a).exec (Rule.run depth) start d)
        ((next' b).exec (Rule.run depth) start' d')) :
    Concur base R ((Parse.step action next).exec (Rule.run depth) start c)
      ((Parse.step action' next').exec (Rule.run depth) start' c') := by
  rw [Parse.exec, Parse.exec]
  generalize Parse.act (Rule.run depth) action c = run at first rest ⊢
  generalize Parse.act (Rule.run depth) action' c' = run' at first ⊢
  cases first with
  | none => exact .none
  | some outcomes =>
    cases outcomes with
    | ok results alike => exact rest _ _ _ _ rfl results alike
    | error fault => exact .some (.error fault)

/-- Rules that come to one when they are lifted concur on like cursors where what they build on is
in hand, with calls nested up to the depth. -/
def Uniform (base : Arena) (depth : Nat) : Prop :=
  ∀ {y : Yield} {rule rule' : Rule y} {c c' : Cursor} {held : List NodeId},
    c.InHand .empty (rule.takes ++ held) → rule.lifted base.size = rule'.lifted 0 →
    Alike base c c' → Concur base (fun a b => y.lifted base.size a = y.lifted 0 b)
      (rule.run depth c) (rule'.run depth c')

namespace Cursor.Alike

theorem act_add (alike : Alike base c c') {shape shape' : Shape NodeId}
    {token token' : Option Token} (shapes : shape.lifted base.size = shape'.unplaced)
    (tokens : token.map Token.unplaced = token'.map Token.unplaced) :
    Concur base (fun i j : NodeId => j = base.size + i)
      (Parse.act (Rule.run depth) (.add shape token) c)
      (Parse.act (Rule.run depth) (.add shape' token') c') := by
  obtain ⟨same, after⟩ := alike.add shapes tokens
  exact .some (.ok same after)

theorem act_settle (alike : Alike base c c') {forest : List Tree} {t : Tree}
    (last : c.arena.IsForest (forest ++ [t])) :
    Concur base (fun i j : NodeId => j = base.size + i)
      (Parse.act (Rule.run depth) (.settle t.id) c)
      (Parse.act (Rule.run depth) (.settle (base.size + t.id)) c') := by
  obtain ⟨same, after⟩ := alike.regroup last
  have frozen := after.freeze (c.regroup t.id).1
  rw [← same] at frozen
  exact .some (.ok same frozen)

theorem act_inspect (alike : Alike base c c') (id : NodeId) :
    Concur base (fun p q : Profile => p = q) (Parse.act (Rule.run depth) (.inspect id) c)
      (Parse.act (Rule.run depth) (.inspect (base.size + id)) c') :=
  .some (.ok (alike.profile id).symm alike)

theorem act_freeze (alike : Alike base c c') (id : NodeId) :
    Concur base (fun _ _ : Unit => True) (Parse.act (Rule.run depth) (.freeze id) c)
      (Parse.act (Rule.run depth) (.freeze (base.size + id)) c') :=
  .some (.ok trivial (alike.freeze id))

/-- What an action other than taking tokens tells is the same on like cursors, if nothing is passed
on. -/
theorem act (alike : Alike base c c') {action : Action} (plain : action.passes = false)
    (other : action ≠ .shift) :
    Concur base Eq (Parse.act (Rule.run depth) action c)
      (Parse.act (Rule.run depth) action c') := by
  cases action with
  | current => exact .some (.ok alike.current.kind alike)
  | peek distance =>
    have peeked := alike.peek distance
    rw [Parse.act, Parse.act]
    generalize c.peek distance = outcome at peeked ⊢
    generalize c'.peek distance = outcome' at peeked ⊢
    cases peeked with
    | ok same after => exact .some (.ok same.kind after)
    | error fault => exact .some (.error fault)
  | announce => exact .some (.ok rfl (alike.stay alike.arena ⟨rfl, rfl, rfl⟩ ⟨rfl, rfl, rfl⟩))
  | _ => contradiction

end Cursor.Alike

/-- Parses that come to the same parse when they are lifted concur. -/
theorem Parse.concur {g : α → γ} {h : β → γ} {q : Parse γ} {p : Parse α} {p' : Parse β}
    {held : List NodeId} {post : α → List NodeId → Prop} (uniform : Uniform base depth)
    (owns : p.Owns held post) (hand : c.InHand .empty held)
    (first : q.told base.size = g <$> p.lifted base.size) (second : q.told 0 = h <$> p'.lifted 0)
    (alike : Alike base c c') :
    Concur base (fun a b => g a = h b) (p.exec (Rule.run depth) start c)
      (p'.exec (Rule.run depth) start' c') := by
  -- Told of different tokens and ids, `p` and `p'` go on in different ways. Both come to how `q`
  -- goes on when it is told of what is common to both, so the induction is on `q`.
  induction q generalizing p p' c c' held with
  | done b =>
    obtain ⟨a, rfl, rfl⟩ := exists_done_of_map first
    obtain ⟨a', rfl, same⟩ := exists_done_of_map second
    exact .some (.ok same alike)
  | fail blame fault =>
    obtain rfl := eq_fail_of_map first
    obtain rfl := eq_fail_of_map second
    cases blame <;> exact .some (.error (congrArg fault alike.current.text))
  | step action next ih =>
    cases action with
    | add shape token =>
      obtain ⟨shape₁, token₁, next₁, rfl, shapes, tokens, rest⟩ := exists_add_of_map first
      obtain ⟨shape₂, token₂, next₂, rfl, shapes', tokens', rest'⟩ := exists_add_of_map second
      rw [Shape.lifted_zero] at shapes'
      apply (alike.act_add (shapes.symm.trans shapes') (tokens.symm.trans tokens')).step
      rintro id _ d d' acted rfl later
      have goesOn := rest' (base.size + id)
      rw [Nat.zero_add] at goesOn
      obtain ⟨_, hand, owns⟩ := owns.act (Rule.keep .empty depth) hand acted
      exact ih _ (owns id rfl) hand (rest id) goesOn later
    | inspect id =>
      obtain ⟨id₁, next₁, rfl, rfl, rest⟩ := exists_inspect_of_map first
      obtain ⟨id₂, next₂, rfl, same, rest'⟩ := exists_inspect_of_map second
      rw [Nat.zero_add] at same
      subst same
      apply (alike.act_inspect id₁).step
      rintro profile _ d d' acted rfl later
      obtain ⟨_, hand, owns⟩ := owns.act (Rule.keep .empty depth) hand acted
      exact ih profile (owns profile rfl) hand (rest profile) (rest' profile) later
    | settle id =>
      obtain ⟨id₁, next₁, rfl, rfl, rest⟩ := exists_settle_of_map first
      obtain ⟨id₂, next₂, rfl, same, rest'⟩ := exists_settle_of_map second
      rw [Nat.zero_add] at same
      subst same
      have ⟨forest, t, last, same⟩ : ∃ forest t, c.arena.IsForest (forest ++ [t]) ∧ t.id = id₁ := by
        obtain ⟨_, rfl, -⟩ := owns
        obtain ⟨forest, t, grows, -, top⟩ := Cursor.inHand_cons.mp hand
        exact ⟨forest, t, Arena.isForest_iff.mpr grows, top⟩
      subst same
      apply (alike.act_settle last).step
      rintro top _ d d' acted rfl later
      have goesOn := rest' (base.size + top)
      rw [Nat.zero_add] at goesOn
      obtain ⟨_, hand, owns⟩ := owns.act (Rule.keep .empty depth) hand acted
      exact ih _ (owns top rfl) hand (rest top) goesOn later
    | freeze id =>
      obtain ⟨id₁, next₁, rfl, rfl, rest⟩ := exists_freeze_of_map first
      obtain ⟨id₂, next₂, rfl, same, rest'⟩ := exists_freeze_of_map second
      rw [Nat.zero_add] at same
      subst same
      apply (alike.act_freeze id₁).step
      intro done _ d d' acted _ later
      obtain ⟨_, hand, owns⟩ := owns.act (Rule.keep .empty depth) hand acted
      exact ih done (owns done rfl) hand (rest done) (rest' done) later
    | call rule =>
      obtain ⟨rule₁, next₁, rfl, rules, rest⟩ := exists_call_of_map first
      obtain ⟨rule₂, next₂, rfl, rules', rest'⟩ := exists_call_of_map second
      have ⟨_, given⟩ : ∃ others, c.InHand .empty (rule₁.takes ++ others) := by
        obtain ⟨others, rfl, -⟩ := owns
        exact ⟨others, hand⟩
      apply Concur.step (uniform given (rules.symm.trans rules') alike)
      intro a b d d' acted same later
      obtain ⟨_, hand, owns⟩ := owns.act (Rule.keep .empty depth) hand acted
      exact ih _ (owns a rfl) hand (rest a) (same ▸ rest' b) later
    | shift =>
      obtain ⟨next₁, rfl, rest⟩ := exists_step_of_map rfl first
      obtain ⟨next₂, rfl, rest'⟩ := exists_step_of_map rfl second
      apply Concur.step (.some alike.shift)
      intro t u d d' acted same later
      obtain ⟨_, hand, owns⟩ := owns.act (Rule.keep .empty depth) hand acted
      exact ih _ (owns t rfl) hand (rest t) (same ▸ rest' u) later
    | _ =>
      obtain ⟨next₁, rfl, rest⟩ := exists_step_of_map rfl first
      obtain ⟨next₂, rfl, rest'⟩ := exists_step_of_map rfl second
      refine Concur.step (alike.act rfl nofun) ?_
      rintro answer _ d d' acted rfl later
      obtain ⟨_, hand, owns⟩ := owns.act (Rule.keep .empty depth) hand acted
      exact ih answer (owns answer rfl) hand (rest answer) (rest' answer) later

/-- Rules concur, however deep calls may nest. -/
theorem uniform (base : Arena) (depth : Nat) : Uniform base depth := by
  induction depth with
  | zero => exact fun _ _ _ => .none
  | succ depth ih =>
    intro y rule rule' c c' held hand same alike
    rw [Rule.run, Rule.run]
    apply Parse.concur ih (rule.body_owns held) hand (rule.told_body base.size) _ alike
    rw [same]
    exact rule'.told_body 0

/-- A rule that is passed no nodes succeeds on like cursors alike. -/
theorem Cursor.Alike.call {y : Yield} {rule : Rule y} {held : List NodeId} {d : Cursor}
    {a : y.Value} (alike : Alike base c c') (hand : c.InHand .empty (rule.takes ++ held))
    (plain : rule.lifted base.size = rule.lifted 0) (ran : rule.run depth c = some (.ok a, d)) :
    ∃ b d', rule.run depth c' = some (.ok b, d') ∧ y.lifted base.size a = y.lifted 0 b ∧
      Alike base d d' := by
  have concur := uniform base depth hand plain alike
  rw [ran] at concur
  generalize rule.run depth c' = run' at concur ⊢
  cases concur with | some agree
  cases agree with | ok same after
  exact ⟨_, _, rfl, same, after⟩

/-- A rule that is passed no nodes and succeeds on top of others succeeds without them. -/
theorem Cursor.Alike.call_of {y : Yield} {rule : Rule y} {held : List NodeId} {d : Cursor}
    {b : y.Value} (alike : Alike base c c') (hand : c.InHand .empty (rule.takes ++ held))
    (plain : rule.lifted base.size = rule.lifted 0) (ran : rule.run depth c' = some (.ok b, d)) :
    ∃ a d', rule.run depth c = some (.ok a, d') ∧ y.lifted base.size a = y.lifted 0 b ∧
      Alike base d' d := by
  have concur := uniform base depth hand plain alike
  rw [ran] at concur
  generalize rule.run depth c = run at concur ⊢
  cases concur with | some agree
  cases agree with | ok same after
  exact ⟨_, _, rfl, same, after⟩

end ScriptSyntax
