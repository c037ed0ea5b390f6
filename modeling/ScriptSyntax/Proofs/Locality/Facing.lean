import ScriptSyntax.Proofs.Layout.Root
import ScriptSyntax.Proofs.Locality.Looking
import ScriptSyntax.Proofs.Ownership.Run
import ScriptSyntax.Proofs.Progress.Advance
import ScriptSyntax.Proofs.Progress.Taking

/-! Runs that succeed depend on the tokens that they take and on those that they looked at. They
succeed again from every cursor that faces these tokens, with the same nodes, whatever follows. -/
namespace ScriptSyntax

namespace Cursor

variable {c c' d : Cursor} {t : Token} {ts us : List Token} {n distance : Nat}

theorem Faces.nth (faces : c.Faces ts) (inside : n < ts.length) : c.nth n = .ok ts[n] := by
  obtain ⟨us, s, reads, ⟨rest, split⟩⟩ := faces
  rw [nth_of_emits reads, ← split, supply, List.getElem?_append_left inside,
    List.getElem?_eq_getElem inside]
  rfl

theorem Faces.current_eq (faces : c.Faces ts) (faces' : c'.Faces ts) (more : ts ≠ []) :
    c'.current = c.current := by
  obtain ⟨t, ts, rfl⟩ := List.exists_cons_of_ne_nil more
  rw [faces.current, faces'.current]

/-- Cursors with the same nodes, whatever their roots are. -/
abbrev Twins (c c' : Cursor) : Prop := c'.arena.unrooted = c.arena.unrooted

namespace Twins

theorem node?_eq (twins : c.Twins c') (id : NodeId) : c'.arena.node? id = c.arena.node? id := by
  have same := congrArg (Arena.node? · id) twins
  exact same

theorem add (twins : c.Twins c') (shape : Shape NodeId) (token : Option Token) :
    (c'.add shape token).1 = (c.add shape token).1 ∧
      (c.add shape token).2.Twins (c'.add shape token).2 := by
  have same := congrArg (Arena.add · shape token) twins
  simp only [Arena.add_unrooted, Prod.mk.injEq] at same
  exact same

theorem settle (twins : c.Twins c') (id : NodeId) :
    (c'.regroup id).1 = (c.regroup id).1 ∧
      ((c.regroup id).2.freeze (c.regroup id).1).Twins
        ((c'.regroup id).2.freeze (c'.regroup id).1) := by
  have same := congrArg (Arena.regroup · id) twins
  simp only [Arena.regroup_unrooted, Prod.mk.injEq] at same
  obtain ⟨-, -, -, arena⟩ := c.regroup_keeps id
  obtain ⟨-, -, -, arena'⟩ := c'.regroup_keeps id
  refine ⟨same.1, ?_⟩
  have top : (c'.regroup id).1 = (c.regroup id).1 := same.1
  rw [top, Twins, Cursor.freeze, Cursor.freeze, arena, arena']
  exact congrArg (Arena.freeze · (c.regroup id).1) same.2.1

theorem peek (twins : c.Twins c') (faces : c.Faces ts) (faces' : c'.Faces ts)
    (inside : distance < ts.length) (peeked : c.peek distance = (.ok t, d)) :
    ∃ d', c'.peek distance = (.ok t, d') ∧ d.Twins d' := by
  have within : 1 ≤ distance ∧ distance ≤ maxLookahead := by
    by_contra outside
    rw [Cursor.peek, if_pos (by omega)] at peeked
    cases peeked
  obtain ⟨e, again⟩ := peek_of_nth within (faces.nth inside)
  obtain ⟨rfl, rfl⟩ : t = ts[distance] ∧ d = e := by simpa using peeked.symm.trans again
  obtain ⟨d', peeked'⟩ := peek_of_nth within (faces'.nth inside)
  have arena := c.arena_peek distance
  have arena' := c'.arena_peek distance
  rw [peeked] at arena
  rw [peeked'] at arena'
  exact ⟨d', peeked', by rwa [Twins, arena, arena']⟩

theorem shift (twins : c.Twins c') (faces : c'.Faces (t :: ts)) (more : ts ≠ [])
    (shifted : c.shift = (.ok t, d)) :
    ∃ d', c'.shift = (.ok t, d') ∧ c'.Takes [t] d' ∧ d.Twins d' := by
  obtain ⟨u, ts, rfl⟩ := List.exists_cons_of_ne_nil more
  obtain ⟨d', shifted', takes⟩ := faces.shift
  have arena := c.arena_shift
  have arena' := c'.arena_shift
  rw [shifted] at arena
  rw [shifted'] at arena'
  exact ⟨d', shifted', takes, by rwa [Twins, arena, arena']⟩

end Twins
end Cursor

open Cursor (Outcome)

variable {α : Type} {p : Parse α} {a : α} {c c' d e : Cursor} {depth seen : Nat} {start : Point}

/-- The run took some tokens between the cursors, none of them the end of input, and saw no more
than `n` behind the one after them. Where as many tokens are faced, and the nodes are the same, it
can be run again. -/
def Confined (run : Cursor → Option (Outcome α)) (a : α) (c d : Cursor) (seen : Nat)
    (post : Nat → Prop) : Prop :=
  ∃ ts n, c.Takes ts d ∧ (∀ t ∈ ts, t.kind ≠ .eof) ∧ post n ∧ seen ≤ ts.length + n ∧
    ∀ us c', n < us.length → c.Faces (ts ++ us) → c'.Faces (ts ++ us) → c.Twins c' →
      ∃ d', run c' = some (.ok a, d') ∧ c'.Takes ts d' ∧ d.Twins d'

/-- Rules that calls nest under up to the depth keep to what they see. -/
def ConfinedRules (depth : Nat) : Prop :=
  ∀ {y : Yield} (rule : Rule y) (c d : Cursor) (seen : Nat) (a : y.Value), seen ≤ 1 →
    rule.run depth c = some (.ok a, d) →
    Confined (rule.run depth) a c d seen fun n =>
      rule.Rests seen c.current.kind n d.current.kind

theorem Parse.exists_peek_of_act {distance : Nat} {k : Kind}
    (acted : act (Rule.run depth) (.peek distance) c = some (.ok k, d)) :
    ∃ t, c.peek distance = (.ok t, d) ∧ k = t.kind := by
  rw [act] at acted
  generalize c.peek distance = outcome at acted ⊢
  obtain ⟨e | t, e⟩ := outcome <;> cases acted
  exact ⟨t, rfl, rfl⟩

/-- What leaves the tokens alone does the same to the same nodes. -/
theorem Cursor.Twins.act_still (twins : c.Twins c') (current : c'.current = c.current)
    {action : Action} {answer : action.Answer} (still : action.isStill = true)
    (acted : Parse.act (Rule.run depth) action c = some (.ok answer, d)) :
    ∃ d', Parse.act (Rule.run depth) action c' = some (.ok answer, d') ∧ c.Takes [] d ∧
      c'.Takes [] d' ∧ d.current = c.current ∧ d.Twins d' := by
  cases action with
  | current =>
    cases acted
    exact ⟨c', by rw [Parse.act, current], .refl c, .refl c', rfl, twins⟩
  | peek _ | shift | call _ => contradiction
  | add shape token =>
    obtain ⟨same, after⟩ := twins.add shape token
    obtain ⟨rfl, rfl⟩ : (c.add shape token).1 = answer ∧ (c.add shape token).2 = d := by
      simpa [Parse.act] using acted
    exact ⟨(c'.add shape token).2, by rw [← same]; rfl, .of_still rfl rfl rfl,
      .of_still rfl rfl rfl, rfl, after⟩
  | inspect id =>
    cases acted
    exact ⟨c', by rw [Parse.act, twins.node?_eq], .refl c, .refl c', rfl, twins⟩
  | settle id =>
    obtain ⟨same, after⟩ := twins.settle id
    obtain ⟨here, pending, scanner, -⟩ := c.regroup_keeps id
    obtain ⟨here', pending', scanner', -⟩ := c'.regroup_keeps id
    obtain ⟨rfl, rfl⟩ : (c.regroup id).1 = answer ∧
        (c.regroup id).2.freeze (c.regroup id).1 = d := by simpa [Parse.act] using acted
    exact ⟨(c'.regroup id).2.freeze (c'.regroup id).1, by rw [← same]; rfl,
      .of_still scanner here pending, .of_still scanner' here' pending', here, after⟩
  | freeze id =>
    cases acted
    exact ⟨_, rfl, .of_still rfl rfl rfl, .of_still rfl rfl rfl, rfl,
      congrArg (Arena.freeze · id) twins⟩
  | announce =>
    cases acted
    exact ⟨_, rfl, .of_still rfl rfl rfl, .of_still rfl rfl rfl, rfl, twins⟩

/-- A run that goes on as another one does, once a first one is through. -/
theorem Confined.bind {β : Type} {first : Cursor → Option (Outcome β)}
    {rest run : Cursor → Option (Outcome α)} {b : β} {mid post : Nat → Prop}
    (begun : Confined first b c e seen mid) (ended : ∀ n, mid n → Confined rest a e d n post)
    (goes : ∀ c' e', first c' = some (.ok b, e') → run c' = rest e') :
    Confined run a c d seen post := by
  obtain ⟨ts, n, takes, more, between, enough, again⟩ := begun
  obtain ⟨ts', n', takes', more', ends, enough', again'⟩ := ended n between
  refine ⟨ts ++ ts', n', takes.trans takes', List.forall_mem_append.mpr ⟨more, more'⟩, ends, ?_,
    fun us c' room faces faces' twins => ?_⟩
  · rw [List.length_append]
    omega
  have room' : n < (ts' ++ us).length := by
    rw [List.length_append]
    omega
  rw [List.append_assoc] at faces faces'
  obtain ⟨e', ran, first, twins⟩ := again (ts' ++ us) c' room' faces faces' twins
  obtain ⟨d', ran', second, twins⟩ :=
    again' us e' room (takes.faces faces) (first.faces faces') twins
  exact ⟨d', (goes c' e' ran).trans ran', first.trans second, twins⟩

namespace Parse

variable {action : Action} {next : action.Answer → Parse α} {answer : action.Answer}

theorem Proceeds.act {rank : Nat} {moved : Bool} {post : α → Bool → Kind → Prop}
    (walk : (step action next).Proceeds rank moved c.current.kind post)
    (acted : Parse.act (Rule.run depth) action c = some (.ok answer, e)) :
    ∃ moved', (next answer).Proceeds rank moved' e.current.kind post := by
  cases action with
  | peek distance =>
    obtain ⟨t, peeked, rfl⟩ := exists_peek_of_act acted
    rw [(Cursor.peek_ok peeked).1]
    exact ⟨_, walk.2 t.kind⟩
  | shift => exact ⟨_, walk.2 answer _⟩
  | call rule => exact ⟨_, walk.2 answer _⟩
  | settle id =>
    obtain ⟨rfl, rfl⟩ : (c.regroup id).1 = answer ∧
        (c.regroup id).2.freeze (c.regroup id).1 = e := by simpa [Parse.act] using acted
    exact ⟨_, (congrArg Token.kind (c.regroup_keeps id).1) ▸ walk _⟩
  | current =>
    cases acted
    exact ⟨_, walk⟩
  | _ =>
    cases acted
    exact ⟨_, walk _⟩

/-- An action that succeeds keeps to what was seen, and to what it sees itself. -/
theorem Looks.act {post : α → Nat → Kind → Prop}
    (looks : (step action next).Looks seen c.current.kind post)
    (more : action = .shift → c.current.kind ≠ .eof) (rules : ConfinedRules depth)
    (acted : Parse.act (Rule.run depth) action c = some (.ok answer, e)) :
    Confined (Parse.act (Rule.run depth) action) answer c e seen fun n =>
      (next answer).Looks n e.current.kind post := by
  by_cases still : action.isStill = true
  · obtain ⟨-, -, takes, -, same, -⟩ := Cursor.Twins.act_still (rfl : c.Twins c) rfl still acted
    refine ⟨[], seen, takes, List.forall_mem_nil _, ?_, Nat.le_add_left ..,
      fun us c' room faces faces' twins => ?_⟩
    · rw [same]
      cases action with
      | current =>
        cases acted
        exact looks
      | peek _ | shift | call _ => contradiction
      | _ => exact looks answer
    · have current := faces.current_eq faces' (List.ne_nil_of_length_pos (Nat.zero_lt_of_lt room))
      obtain ⟨e', acted', -, takes', -, twins⟩ := twins.act_still current still acted
      exact ⟨e', acted', takes', twins⟩
  · cases action with
    | peek distance =>
      obtain ⟨t, peeked, rfl⟩ := exists_peek_of_act acted
      refine ⟨[], max seen distance, .of_peek peeked, List.forall_mem_nil _, ?_, by omega,
        fun us c' room faces faces' twins => ?_⟩
      · rw [(Cursor.peek_ok peeked).1]
        exact looks t.kind
      · obtain ⟨e', peeked', twins⟩ := twins.peek faces faces' (by simpa using by omega) peeked
        exact ⟨e', by rw [Parse.act, peeked']; rfl, .of_peek peeked', twins⟩
    | shift =>
      have shifted : c.shift = (.ok answer, e) := Option.some.inj acted
      obtain ⟨rfl, takes⟩ := Cursor.Takes.of_shift shifted
      refine ⟨[c.current], seen - 1, takes, List.forall_mem_singleton.mpr (more rfl), looks _ _,
        by rw [List.length_singleton]; omega, fun us c' room faces faces' twins => ?_⟩
      obtain ⟨e', shifted', takes', twins⟩ := twins.shift faces'
        (List.ne_nil_of_length_pos (Nat.zero_lt_of_lt room)) shifted
      exact ⟨e', congrArg some shifted', takes', twins⟩
    | call rule =>
      obtain ⟨few, later⟩ := looks
      obtain ⟨ts, n, takes, proper, rests, again⟩ := rules rule c e seen answer few acted
      exact ⟨ts, n, takes, proper, later answer n _ rests, again⟩
    | _ => exact absurd rfl still

/-- A run that succeeds keeps to what it sees. -/
theorem Looks.confined {rank : Nat} {moved : Bool} {post : α → Nat → Kind → Prop}
    {post' : α → Bool → Kind → Prop} (looks : p.Looks seen c.current.kind post)
    (walk : p.Proceeds rank moved c.current.kind post') (rules : ConfinedRules depth)
    (ran : p.exec (Rule.run depth) start c = some (.ok a, d)) :
    Confined (p.exec (Rule.run depth) start) a c d seen fun n => post a n d.current.kind := by
  induction p generalizing c seen moved with
  | done b =>
    cases ran
    exact ⟨[], seen, .refl d, List.forall_mem_nil _, looks, Nat.le_add_left ..,
      fun _ c' _ _ _ twins => ⟨c', rfl, .refl c', twins⟩⟩
  | fail blame fault => cases blame <;> cases ran
  | step action next ih =>
    obtain ⟨answer, e, acted, ran⟩ := exec_step_ok.mp ran
    obtain ⟨moved', later⟩ := walk.act acted
    have more : action = .shift → c.current.kind ≠ .eof := by
      rintro rfl
      exact walk.1
    refine (looks.act more rules acted).bind (fun n looks => ih answer looks later ran) ?_
    intro c' e' acted'
    rw [exec, acted']

end Parse

/-- Rules keep to what they see, however deep calls nest. -/
theorem confinedRules (depth : Nat) : ConfinedRules depth := by
  induction depth with
  | zero => exact fun _ _ _ _ _ _ => nofun
  | succ depth ih =>
    intro y rule c d seen a few ran
    obtain ⟨ts, n, takes, more, rests, enough, again⟩ :=
      (rule.body_looks few c.current.kind).confined (rule.body_proceeds _) ih ran
    refine ⟨ts, n, takes, more, rests, enough, fun us c' room faces faces' twins => ?_⟩
    have current := faces.current_eq faces' (List.append_ne_nil_of_right_ne_nil ts
      (List.ne_nil_of_length_pos (Nat.zero_lt_of_lt room)))
    rw [Rule.run, Cursor.point, current]
    exact again us c' room faces faces' twins

end ScriptSyntax
