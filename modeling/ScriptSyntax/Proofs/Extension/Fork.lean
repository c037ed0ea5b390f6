import ScriptSyntax.Proofs.Progress.Advance

/-! Runs on two sources that begin with the same tokens. The runs keep abreast as long as they have
come to none of those that follow. -/
namespace ScriptSyntax

open Cursor (Outcome)

variable {α : Type} {i j depth distance : Nat} {c c' d : Cursor} {a : α}

/-- Cursors on two sources, each at a place of its own, with one arena. -/
structure Cursor.Level (tokens tokens' : Nat → Token) (i j : Nat) (c c' : Cursor) : Prop where
  first : c.Walks tokens i
  second : c'.Walks tokens' j
  arena : c'.arena = c.arena

namespace Cursor.Level

variable {tokens tokens' : Nat → Token}

theorem act_still (level : Level tokens tokens' i j c c') {action : Action}
    {answer : action.Answer} (still : action.isStill = true)
    (here : action = .current → (tokens' j).kind = (tokens i).kind)
    (acted : Parse.act (Rule.run depth) action c = some (.ok answer, d)) :
    ∃ d', Parse.act (Rule.run depth) action c' = some (.ok answer, d') ∧
      Level tokens tokens' i j d d' := by
  have arena := level.arena
  cases action with
  | current =>
    cases acted
    refine ⟨c', ?_, level⟩
    rw [Parse.act, level.first.current, level.second.current, here rfl]
  | peek _ | shift | call _ => contradiction
  | add shape token =>
    have id : c'.arena.size = c.arena.size := congrArg Arena.size arena
    cases acted
    refine ⟨(c'.add shape token).2, ?_, level.first.stay rfl rfl rfl,
      level.second.stay rfl rfl rfl, congrArg (fun a => (a.add shape token).2) arena⟩
    rw [← id]
    rfl
  | inspect id =>
    cases acted
    refine ⟨c', ?_, level⟩
    rw [Parse.act, arena]
  | settle id =>
    obtain ⟨current, pending, scanner, after⟩ := c.regroup_keeps id
    obtain ⟨current', pending', scanner', after'⟩ := c'.regroup_keeps id
    have top : (c'.regroup id).1 = (c.regroup id).1 :=
      congrArg (fun a => (a.regroup id).1) arena
    simp only [Parse.act, Option.some.injEq, Prod.mk.injEq, Except.ok.injEq] at acted
    obtain ⟨rfl, rfl⟩ := acted
    refine ⟨(c'.regroup id).2.freeze (c.regroup id).1, ?_,
      level.first.stay scanner current pending,
      level.second.stay scanner' current' pending', ?_⟩
    · exact top ▸ rfl
    · exact congrArg (fun a => Arena.freeze a (c.regroup id).1)
        (after'.trans ((congrArg (fun a => (a.regroup id).2.1) arena).trans after.symm))
  | freeze id =>
    cases acted
    exact ⟨_, rfl, level.first.stay rfl rfl rfl, level.second.stay rfl rfl rfl,
      congrArg (fun a => a.freeze id) arena⟩
  | announce =>
    cases acted
    exact ⟨_, rfl, level.first.stay rfl rfl rfl, level.second.stay rfl rfl rfl, arena⟩

theorem act_shift (level : Level tokens tokens' i j c c') (same : tokens' j = tokens i)
    {t : Token} (acted : Parse.act (Rule.run depth) .shift c = some (.ok t, d)) :
    ∃ d', Parse.act (Rule.run depth) .shift c' = some (.ok t, d') ∧
      Level tokens tokens' (i + 1) (j + 1) d d' := by
  obtain ⟨_, again, after, arena⟩ := level.first.act_shift depth
  cases acted.symm.trans again
  obtain ⟨d', acted', after', arena'⟩ := level.second.act_shift depth
  rw [same] at acted'
  exact ⟨d', acted', after, after', by rw [arena, arena', level.arena]⟩

theorem act_peek (level : Level tokens tokens' i j c c')
    (same : (tokens' (j + distance)).kind = (tokens (i + distance)).kind) {k : Kind}
    (acted : Parse.act (Rule.run depth) (.peek distance) c = some (.ok k, d)) :
    ∃ d', Parse.act (Rule.run depth) (.peek distance) c' = some (.ok k, d') ∧
      Level tokens tokens' i j d d' := by
  have within := Cursor.Walks.limit_of_act_peek acted
  obtain ⟨_, again, after, arena⟩ := level.first.act_peek depth within
  cases acted.symm.trans again
  obtain ⟨d', acted', after', arena'⟩ := level.second.act_peek depth within
  rw [same] at acted'
  exact ⟨d', acted', after, after', by rw [arena, arena', level.arena]⟩

end Cursor.Level

/-- Two sources that have so many tokens in common. -/
structure Fork where
  short : Nat → Token
  long : Nat → Token
  size : Nat
  common : ∀ i < size, long i = short i

namespace Fork

variable (x : Fork)

/-- Cursors at one place, with one arena. -/
structure Abreast (i : Nat) (c c' : Cursor) : Prop where
  first : c.Walks x.short i
  second : c'.Walks x.long i
  within : i ≤ x.size
  arena : c'.arena = c.arena

/-- The run on the second source gives this value too, and leaves the cursors abreast. -/
def Keeps (run : Option (Outcome α)) (a : α) (d : Cursor) : Prop :=
  ∃ j d', run = some (.ok a, d') ∧ x.Abreast j d d'

variable {x}

theorem Abreast.of_level (level : Cursor.Level x.short x.long i i c c') (within : i ≤ x.size) :
    x.Abreast i c c' :=
  ⟨level.first, level.second, within, level.arena⟩

namespace Abreast

theorem level (abreast : x.Abreast i c c') : Cursor.Level x.short x.long i i c c' :=
  ⟨abreast.first, abreast.second, abreast.arena⟩

theorem current (abreast : x.Abreast i c c') (inside : i < x.size) : c'.current = c.current := by
  rw [abreast.first.current, abreast.second.current, x.common i inside]

theorem act_still (abreast : x.Abreast i c c') {action : Action} {answer : action.Answer}
    (still : action.isStill = true) (here : action = .current → i < x.size)
    (acted : Parse.act (Rule.run depth) action c = some (.ok answer, d)) :
    ∃ d', Parse.act (Rule.run depth) action c' = some (.ok answer, d') ∧ x.Abreast i d d' := by
  obtain ⟨d', acted', after⟩ := abreast.level.act_still still
    (fun current => by rw [x.common i (here current)]) acted
  exact ⟨d', acted', .of_level after abreast.within⟩

theorem act_shift (abreast : x.Abreast i c c') (inside : i < x.size) {t : Token}
    (acted : Parse.act (Rule.run depth) .shift c = some (.ok t, d)) :
    ∃ d', Parse.act (Rule.run depth) .shift c' = some (.ok t, d') ∧ x.Abreast (i + 1) d d' := by
  obtain ⟨d', acted', after⟩ := abreast.level.act_shift (x.common i inside) acted
  exact ⟨d', acted', .of_level after inside⟩

theorem act_peek (abreast : x.Abreast i c c') (inside : i + distance < x.size)
    {k : Kind} (acted : Parse.act (Rule.run depth) (.peek distance) c = some (.ok k, d)) :
    ∃ d', Parse.act (Rule.run depth) (.peek distance) c' = some (.ok k, d') ∧
      x.Abreast i d d' := by
  obtain ⟨d', acted', after⟩ :=
    abreast.level.act_peek (congrArg Token.kind (x.common _ inside)) acted
  exact ⟨d', acted', .of_level after abreast.within⟩

end Abreast

end Fork
end ScriptSyntax
