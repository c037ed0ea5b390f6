import ScriptSyntax.Proofs.Derivation.Derives
import ScriptSyntax.Proofs.Grouping.Regroup
import ScriptSyntax.Proofs.Progress.Pull

/-! What a successful run does to a cursor, told by the tokens that it takes and the trees that it
adds. The actions are told one by one, and runs of parses are put together from them. -/
namespace ScriptSyntax

theorem Shape.map_eq_name {α β : Type} {f : α → β} {s : Shape α} : s.map f = .name ↔ s = .name := by
  cases s <;> simp [map]

namespace Cursor

variable {c c' : Cursor} {s : Scanner} {taken : List Token} {forest : List Tree}

/-- The cursor has taken the tokens `taken` off the scanner `s`, and its arena consists of the trees
of the forest. -/
structure At (c : Cursor) (s : Scanner) (taken : List Token) (forest : List Tree) : Prop where
  reads : s.Emits (taken ++ c.current :: c.pending) c.scanner
  forest : c.arena.IsForest forest

theorem eq_of_prefix_total {base xs ys : List Token} {t u : Token}
    (either : base ++ t :: xs <+: base ++ u :: ys ∨ base ++ u :: ys <+: base ++ t :: xs) :
    t = u := by
  simp only [List.prefix_append_right_inj, List.cons_prefix_cons] at either
  exact either.elim (·.1) (·.1.symm)

/-- What is taken at one place is the same at all later times. -/
theorem At.eq_of_taken {d : Cursor} {base ts us : List Token} {t u : Token} {trees : List Tree}
    (first : c.At s (base ++ t :: ts) forest) (second : d.At s (base ++ u :: us) trees) :
    t = u := by
  have reads := first.reads.prefix_total second.reads
  simp only [List.append_assoc, List.cons_append] at reads
  exact eq_of_prefix_total reads

/-- What the cursor stands at depends on the tokens taken before it alone. -/
theorem At.eq_current {d : Cursor} {trees : List Tree} (first : c.At s taken forest)
    (second : d.At s taken trees) : c.current = d.current :=
  eq_of_prefix_total (first.reads.prefix_total second.reads)

theorem At.peeked {depth : Nat} {t : Token} (here : c.At s taken forest)
    (peeked : c.peek depth = (.ok t, c')) : c'.current = c.current ∧ c'.At s taken forest := by
  obtain ⟨current, arena, ts, reads, pending⟩ := peek_ok peeked
  refine ⟨current, ?_, arena ▸ here.forest⟩
  rw [pending, current]
  simpa using here.reads.append reads

theorem At.shifted {t : Token} (here : c.At s taken forest) (shifted : c.shift = (.ok t, c')) :
    t = c.current ∧ c'.At s (taken ++ [t]) forest := by
  obtain ⟨rfl, arena, ts, reads, same⟩ := shift_ok shifted
  refine ⟨rfl, ?_, arena ▸ here.forest⟩
  rw [same]
  simpa using here.reads.append reads

theorem At.regrouped {t : Tree} (here : c.At s taken (forest ++ [t])) :
    (c.regroup t.id).1 = t.grouped.id ∧ (c.regroup t.id).2.current = c.current ∧
      (c.regroup t.id).2.At s taken (forest ++ [t.grouped]) := by
  obtain ⟨grown, top⟩ := here.forest.regroup
  obtain ⟨current, pending, scanner, arena⟩ := c.regroup_keeps t.id
  refine ⟨top, current, ?_, ?_⟩
  · rw [current, pending, scanner]
    exact here.reads
  · rw [arena]
    exact grown

/-- The cursor has taken a phrase after the tokens `base`, which gave the value and added its trees
to the forest. -/
def Has (c : Cursor) (s : Scanner) (base : List Token) (forest : List Tree) {y : Yield}
    (phrase : Phrase y) (value : y.Value) : Prop :=
  ∃ ts r, value = y.ids r ∧ Derives phrase ts c.current r ∧
    c.At s (base ++ ts) (forest ++ y.trees r)

end Cursor

/-- What a rule derives. -/
def Rule.phrase : {y : Yield} → Rule y → Phrase y
  | _, statement => .statement
  | _, statements stops => .statements stops
  | _, expression stops assignable => .expression stops assignable
  | _, weave _ stops assignable => .expression stops assignable
  | _, term stops => .term stops
  | _, suffix _ => .operand
  | _, typeTerm => .type
  | _, typeTerms => .types
  | _, modifiers => .modifiers
  | _, items stops item => .items stops item
  | _, entries named => .entries named
  | _, sections => .sections
  | _, branches _ => .branches
  | _, cases => .cases
  | _, catches => .catches
  | _, instances => .instances
  | _, members => .members

/-- Where a rule starts. What it goes on with was read before. -/
def Rule.Ready (c : Cursor) (s : Scanner) (base : List Token) (forest : List Tree) :
    {y : Yield} → Rule y → Prop
  | _, weave left stops _ => c.Has s base forest (.chain stops) left
  | _, suffix operand => c.Has s base forest .operand operand
  | _, branches keyword => keyword.kind = .ifKw ∧ c.At s (base ++ [keyword]) forest
  | _, _ => c.At s base forest

/-- Calls that nest up to the depth and succeed derive what their rules stand for. -/
def Sound (depth : Nat) : Prop :=
  ∀ {y : Yield} (rule : Rule y) (c c' : Cursor) (s : Scanner) (base : List Token)
    (forest : List Tree) (value : y.Value), rule.Ready c s base forest →
    rule.run depth c = some (.ok value, c') → c'.Has s base forest rule.phrase value

/-- Whether the action may be taken at the cursor: what is regrouped is the last tree, and a rule is
called where it may start. -/
def Action.Apt (c : Cursor) : Action → Prop
  | settle id => ∃ rest t, c.arena.IsForest (rest ++ [t]) ∧ t.id = id
  | call rule => ∃ s base forest, rule.Ready c s base forest
  | _ => True

/-- Whether each action that a run from the cursor comes to may be taken there. -/
def Parse.Apt {α : Type} (depth : Nat) : Parse α → Cursor → Prop
  | done _, _ | fail .., _ => True
  | step action next, c => action.Apt c ∧ ∀ answer c',
      act (Rule.run depth) action c = some (.ok answer, c') → (next answer).Apt depth c'

/-- A run of a parse from `c`, with calls that nest up to a depth, comes to no action that is not
apt, and gives a value and a cursor as described if it succeeds. -/
structure Ensures {α : Type} (depth : Nat) (start : Point) (p : Parse α) (c : Cursor)
    (post : α → Cursor → Prop) : Prop where
  apt : p.Apt depth c
  result : ∀ a c', p.exec (Rule.run depth) start c = some (.ok a, c') → post a c'

theorem Parse.Apt.bind {α β : Type} {depth : Nat} {start : Point} {c : Cursor} {p : Parse α}
    {f : α → Parse β} (first : p.Apt depth c)
    (rest : ∀ a c', p.exec (Rule.run depth) start c = some (.ok a, c') → (f a).Apt depth c') :
    (p >>= f).Apt depth c := by
  induction p generalizing c with
  | done a => exact rest a c rfl
  | fail blame fault => trivial
  | step action next ih =>
    refine ⟨first.1, fun answer c' acted => ?_⟩
    exact ih answer (first.2 answer c' acted) fun a d ran =>
      rest a d (by rw [exec, acted]; exact ran)

theorem Parse.Apt.of_bind {α β : Type} {depth : Nat} {c : Cursor} {p : Parse α} {f : α → Parse β}
    (apt : (p >>= f).Apt depth c) : p.Apt depth c ∧ ∀ start a d,
      p.exec (Rule.run depth) start c = some (.ok a, d) → (f a).Apt depth d := by
  induction p generalizing c with
  | done a =>
    refine ⟨trivial, ?_⟩
    rintro start _ _ ⟨⟩
    exact apt
  | fail blame fault =>
    refine ⟨trivial, fun start a d ran => ?_⟩
    cases blame <;> cases ran
  | step action next ih =>
    refine ⟨⟨apt.1, fun answer e acted => (ih answer (apt.2 answer e acted)).1⟩, ?_⟩
    intro start a d ran
    obtain ⟨answer, e, acted, later⟩ := exec_step_ok.mp ran
    exact (ih answer (apt.2 answer e acted)).2 start a d later

namespace Ensures

variable {α β : Type} {depth : Nat} {start : Point} {c : Cursor} {p : Parse α} {f : α → Parse β}
  {mid : α → Cursor → Prop} {post : β → Cursor → Prop}

theorem pure {post : α → Cursor → Prop} {a : α} (holds : post a c) :
    Ensures depth start (pure a) c post := by
  refine ⟨trivial, ?_⟩
  rintro _ _ ⟨⟩
  exact holds

theorem fail {blame : Blame} {fault : String → Fault} :
    Ensures depth start (.fail blame fault) c post := by
  refine ⟨trivial, fun a c' run => ?_⟩
  cases blame <;> simp [Parse.exec] at run

theorem bind (first : Ensures depth start p c mid)
    (rest : ∀ a c', mid a c' → Ensures depth start (f a) c' post) :
    Ensures depth start (p >>= f) c post := by
  refine ⟨first.apt.bind fun a c' ran => (rest a c' (first.result a c' ran)).apt, ?_⟩
  intro b c'' run
  obtain ⟨a, c', ran, ran'⟩ := Parse.exec_bind_ok.mp run
  exact (rest a c' (first.result a c' ran)).result b c'' ran'

theorem imp {post' : α → Cursor → Prop} (first : Ensures depth start p c mid)
    (weaken : ∀ a c', mid a c' → post' a c') : Ensures depth start p c post' :=
  ⟨first.apt, fun _ _ run => weaken _ _ (first.result _ _ run)⟩

theorem map {g : α → β} (first : Ensures depth start p c mid) :
    Ensures depth start (g <$> p) c fun b c' => ∃ a, b = g a ∧ mid a c' :=
  bind first fun a _ holds => pure ⟨a, rfl, holds⟩

end Ensures

namespace Parse

variable {α : Type} {depth : Nat} {start : Point} {c : Cursor} {post : α → Cursor → Prop}

theorem ensures_perform {action : Action} {post : action.Answer → Cursor → Prop} :
    Ensures depth start (perform action) c post ↔ action.Apt c ∧
      ∀ a c', act (Rule.run depth) action c = some (.ok a, c') → post a c' := by
  refine ⟨fun ensures => ⟨ensures.apt.1, fun a c' acted => ?_⟩,
    fun ⟨apt, holds⟩ => ⟨⟨apt, fun _ _ _ => trivial⟩, fun a c' ran => ?_⟩⟩
  · exact ensures.result a c' ((exec_perform action).trans acted)
  · exact holds a c' ((exec_perform action).symm.trans ran)

theorem ensures_current {f : Kind → Parse α} :
    Ensures depth start (current >>= f) c post ↔
      Ensures depth start (f c.current.kind) c post := by
  refine ⟨fun ensures => ⟨ensures.apt.2 _ _ rfl, ensures.result⟩,
    fun ensures => ⟨⟨trivial, ?_⟩, ensures.result⟩⟩
  rintro _ _ ⟨⟩
  exact ensures.apt

theorem ensures_isAt {k : Kind} {f : Bool → Parse α} :
    Ensures depth start (isAt k >>= f) c post ↔
      Ensures depth start (f (decide (c.current.kind = k))) c post :=
  ensures_current

theorem ensures_isAtAny {ks : List Kind} {f : Bool → Parse α} :
    Ensures depth start (isAtAny ks >>= f) c post ↔
      Ensures depth start (f (ks.contains c.current.kind)) c post :=
  ensures_current

end Parse

namespace Cursor.At

open Parse

variable {depth : Nat} {start : Point} {c : Cursor} {s : Scanner} {taken : List Token}
  {forest rest : List Tree} {t : Tree}

theorem shift (here : c.At s taken forest) :
    Ensures depth start Parse.shift c fun t c' =>
      t = c.current ∧ c'.At s (taken ++ [t]) forest := by
  refine ensures_perform.mpr ⟨trivial, fun _ _ run => ?_⟩
  exact here.shifted (Option.some.inj run)

theorem peek (here : c.At s taken forest) (distance : Nat) :
    Ensures depth start (Parse.peek distance) c fun _ c' =>
      c'.current = c.current ∧ c'.At s taken forest := by
  refine ensures_perform.mpr ⟨trivial, fun k c' run => ?_⟩
  simp only [act, Option.some.injEq] at run
  generalize peeked : c.peek distance = r at run
  obtain ⟨e | t, d⟩ := r
  · simp [Prod.map, Except.map] at run
  · simp only [Prod.map, Except.map, id, Prod.mk.injEq] at run
    obtain ⟨-, rfl⟩ := run
    exact here.peeked peeked

theorem add (here : c.At s taken forest) {ids : Shape NodeId} {token : Option Token}
    (rest : List Tree) (shape : Shape Tree) (same : ids = shape.map Tree.id)
    (split : forest = rest ++ shape.children) :
    Ensures depth start (Parse.add ids token) c fun i c' =>
      c'.current = c.current ∧ c'.At s taken (rest ++ [.node i shape token false]) := by
  refine ensures_perform.mpr ⟨trivial, fun _ _ run => ?_⟩
  simp only [act, Option.some.injEq, Prod.mk.injEq, Except.ok.injEq] at run
  obtain ⟨rfl, rfl⟩ := run
  subst same split
  exact ⟨rfl, here.reads, here.forest.add token⟩

theorem inspect (here : c.At s taken (rest ++ [t])) :
    Ensures depth start (Parse.inspect t.id) c fun p c' => c' = c ∧
      p.isMember = t.shape.isMember ∧ (p.openName = true → t.shape = .name ∧ t.frozen = false) := by
  refine ensures_perform.mpr ⟨trivial, fun _ _ run => ?_⟩
  simp only [act, Option.some.injEq, Prod.mk.injEq, Except.ok.injEq] at run
  obtain ⟨rfl, rfl⟩ := run
  obtain ⟨parent, stored⟩ := (here.forest.holds t (by simp) t t.self_mem_nodes).stored
  simp only [stored, Option.getD_some, Node.profile]
  refine ⟨trivial, by cases t.shape <;> rfl, fun opened => ?_⟩
  simpa only [Bool.and_eq_true, decide_eq_true_eq, Bool.not_eq_true', Shape.map_eq_name]
    using opened

theorem settle (here : c.At s taken (rest ++ [t])) :
    Ensures depth start (Parse.settle t.id) c fun i c' => i = t.grouped.freeze.id ∧
      c'.current = c.current ∧ c'.At s taken (rest ++ [t.grouped.freeze]) := by
  refine ensures_perform.mpr ⟨⟨rest, t, here.forest, rfl⟩, fun _ _ run => ?_⟩
  simp only [act, Option.some.injEq, Prod.mk.injEq, Except.ok.injEq] at run
  obtain ⟨rfl, rfl⟩ := run
  obtain ⟨top, current, grouped⟩ := here.regrouped
  rw [top, Tree.id_freeze]
  exact ⟨rfl, current, grouped.reads, grouped.forest.freeze⟩

theorem freeze (here : c.At s taken (rest ++ [t])) :
    Ensures depth start (Parse.freeze t.id) c fun _ c' =>
      c'.current = c.current ∧ c'.At s taken (rest ++ [t.freeze]) := by
  refine ensures_perform.mpr ⟨trivial, fun _ _ run => ?_⟩
  simp only [act, Option.some.injEq, Prod.mk.injEq] at run
  obtain ⟨-, rfl⟩ := run
  exact ⟨rfl, here.reads, here.forest.freeze⟩

theorem announce (here : c.At s taken forest) :
    Ensures depth start Parse.announce c fun _ c' =>
      c'.current = c.current ∧ c'.At s taken forest := by
  refine ensures_perform.mpr ⟨trivial, fun _ _ run => ?_⟩
  simp only [act, Option.some.injEq, Prod.mk.injEq] at run
  obtain ⟨-, rfl⟩ := run
  exact ⟨rfl, here.reads, here.forest⟩

/-- A token of the kind is taken. -/
theorem expect (here : c.At s taken forest) (k : Kind) :
    Ensures depth start (Parse.expect k) c fun t c' =>
      t = c.current ∧ t.kind = k ∧ c'.At s (taken ++ [t]) forest := by
  simp only [Parse.expect, ensures_isAt, decide_eq_true_eq]
  split
  · next found =>
    refine here.shift.imp ?_
    rintro t c' ⟨rfl, later⟩
    exact ⟨rfl, found, later⟩
  · exact .fail

theorem expectAny (here : c.At s taken forest) (ks : List Kind) :
    Ensures depth start (Parse.expectAny ks) c fun t c' =>
      t = c.current ∧ ks.contains t.kind = true ∧ c'.At s (taken ++ [t]) forest := by
  simp only [Parse.expectAny, ensures_isAtAny]
  split
  · next found =>
    refine here.shift.imp ?_
    rintro t c' ⟨rfl, later⟩
    exact ⟨rfl, found, later⟩
  · exact .fail

/-- A token of the kind is taken, or the cursor stays. -/
theorem accept? (here : c.At s taken forest) (k : Kind) :
    Ensures depth start (Parse.accept? k) c fun o c' =>
      (c.current.kind = k ∧ o = some c.current ∧ c'.At s (taken ++ [c.current]) forest) ∨
        (c.current.kind ≠ k ∧ o = none ∧ c' = c) := by
  simp only [Parse.accept?, ensures_isAt, decide_eq_true_eq]
  split
  · next found =>
    refine here.shift.bind ?_
    rintro t c' ⟨rfl, later⟩
    exact .pure (.inl ⟨found, rfl, later⟩)
  · next other => exact .pure (.inr ⟨other, rfl, rfl⟩)

theorem accept (here : c.At s taken forest) (k : Kind) :
    Ensures depth start (Parse.accept k) c fun b c' =>
      (c.current.kind = k ∧ b = true ∧ c'.At s (taken ++ [c.current]) forest) ∨
        (c.current.kind ≠ k ∧ b = false ∧ c' = c) := by
  refine (here.accept? k).bind ?_
  rintro o c' (⟨found, rfl, later⟩ | ⟨other, rfl, rfl⟩)
  · exact .pure (.inl ⟨found, rfl, later⟩)
  · exact .pure (.inr ⟨other, rfl, rfl⟩)

/-- An optional token of the kind is taken. -/
theorem mark? (here : c.At s taken forest) (k : Kind) :
    Ensures depth start (Parse.accept? k) c fun o c' =>
      (∀ t ∈ o, t.kind = k) ∧ c'.At s (taken ++ o.toList) forest := by
  refine (here.accept? k).imp ?_
  rintro o c' (⟨found, rfl, later⟩ | ⟨-, rfl, rfl⟩)
  · exact ⟨by simpa using found, by simpa using later⟩
  · exact ⟨by simp, by simpa using here⟩

theorem mark (here : c.At s taken forest) (k : Kind) :
    Ensures depth start (Parse.accept k) c fun b c' => ∃ o : Option Token,
      b = o.isSome ∧ (∀ t ∈ o, t.kind = k) ∧ c'.At s (taken ++ o.toList) forest := by
  refine (here.mark? k).bind fun o c' later => ?_
  exact .pure ⟨o, rfl, later⟩

end Cursor.At

/-- A call that starts where the rule may start derives what the rule stands for. -/
theorem Sound.call {depth : Nat} (sound : Sound depth) {start : Point} {y : Yield}
    (rule : Rule y) {c : Cursor} {s : Scanner} {base : List Token} {forest : List Tree}
    (ready : rule.Ready c s base forest) :
    Ensures depth start (Parse.call rule) c
      fun value c' => c'.Has s base forest rule.phrase value :=
  Parse.ensures_perform.mpr ⟨⟨s, base, forest, ready⟩, fun _ _ run =>
    sound rule _ _ _ _ _ _ ready run⟩

end ScriptSyntax
