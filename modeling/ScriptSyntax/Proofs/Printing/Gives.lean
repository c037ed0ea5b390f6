import ScriptSyntax.Proofs.Derivation.Run
import ScriptSyntax.Proofs.Scan.Lexeme

/-! Runs that succeed, told by the tokens ahead of the cursor and by the trees made so far. The
tokens are known up to their places, and calls may nest as deep as the run needs. -/
namespace ScriptSyntax

/-- The parse gives a value and a cursor as described, once calls may nest deep enough. -/
def Gives {α : Type} (p : Parse α) (c : Cursor) (post : α → Cursor → Prop) : Prop :=
  ∃ depth a c', (∀ start, p.exec (Rule.run depth) start c = some (.ok a, c')) ∧ post a c'

namespace Gives

variable {α β : Type} {c : Cursor} {p : Parse α} {f : α → Parse β} {mid : α → Cursor → Prop}

theorem pure {post : α → Cursor → Prop} {a : α} (holds : post a c) : Gives (pure a) c post :=
  ⟨0, a, c, fun _ => rfl, holds⟩

theorem bind {post : β → Cursor → Prop} (first : Gives p c mid)
    (rest : ∀ a c', mid a c' → Gives (f a) c' post) : Gives (p >>= f) c post := by
  obtain ⟨depth, a, c', ran, between⟩ := first
  obtain ⟨depth', b, c'', ran', holds⟩ := rest a c' between
  refine ⟨max depth depth', b, c'', fun start => ?_, holds⟩
  have early := Parse.exec_of_le (Nat.le_max_left depth depth') (ran start)
  have late := Parse.exec_of_le (Nat.le_max_right depth depth') (ran' start)
  exact (Parse.exec_bind ..).trans (by rw [early]; exact late)

theorem imp {post : α → Cursor → Prop} (first : Gives p c mid)
    (weaken : ∀ a c', mid a c' → post a c') : Gives p c post := by
  obtain ⟨depth, a, c', ran, holds⟩ := first
  exact ⟨depth, a, c', ran, weaken a c' holds⟩

/-- A call gives what the body of its rule gives. -/
theorem call {y : Yield} {rule : Rule y} {post : y.Value → Cursor → Prop}
    (body : Gives rule.body c post) : Gives (Parse.call rule) c post := by
  obtain ⟨depth, a, c', ran, holds⟩ := body
  exact ⟨depth + 1, a, c', fun _ => (Parse.exec_perform _).trans (ran c.point), holds⟩

theorem perform {action : Action} {post : action.Answer → Cursor → Prop} {a : action.Answer}
    {c' : Cursor} (ran : Parse.act (Rule.run 0) action c = some (.ok a, c')) (holds : post a c') :
    Gives (Parse.perform action) c post :=
  ⟨0, a, c', fun _ => (Parse.exec_perform action).trans ran, holds⟩

theorem current {f : Kind → Parse α} {post : α → Cursor → Prop} :
    Gives (Parse.current >>= f) c post ↔ Gives (f c.current.kind) c post := Iff.rfl

theorem isAt {k : Kind} {f : Bool → Parse α} {post : α → Cursor → Prop} :
    Gives (Parse.isAt k >>= f) c post ↔ Gives (f (decide (c.current.kind = k))) c post := Iff.rfl

theorem isAtAny {ks : List Kind} {f : Bool → Parse α} {post : α → Cursor → Prop} :
    Gives (Parse.isAtAny ks >>= f) c post ↔ Gives (f (ks.contains c.current.kind)) c post := Iff.rfl

/-- A token of another kind is not taken. -/
theorem pass {k : Kind} (other : c.current.kind ≠ k) :
    Gives (Parse.accept k) c fun b c' => b = false ∧ c' = c := by
  have left : Gives (Parse.accept? k) c fun o c' => o.isSome = false ∧ c' = c := by
    simp only [Parse.accept?, isAt, other, decide_false, Bool.false_eq_true, if_false]
    exact pure ⟨rfl, rfl⟩
  exact left.bind fun o c' later => pure later

end Gives

/-- A scanner goes on with the token that comes next. -/
theorem Scanner.Emits.next {s s' s'' : Scanner} {ts us : List Token} {u : Token}
    (reads : s.Emits (ts ++ u :: us) s'') (first : s.Emits ts s') :
    ∃ after, s'.next = (.ok u, after) := by
  obtain ⟨middle, again, later⟩ := reads.exists_of_append
  obtain rfl := first.unique again
  cases later with
  | cons read _ => exact ⟨_, read⟩

namespace Cursor

/-- The tokens ahead of the cursor, the current one first, are these up to their places, and its
arena consists of the trees of the forest. -/
def Before (c : Cursor) (ahead : List Lexeme) (forest : List Tree) : Prop :=
  ∃ s taken ts s', c.At s taken forest ∧ s.Emits (taken ++ ts) s' ∧ ts.map Token.lexeme = ahead

namespace Before

variable {c : Cursor} {l m : Lexeme} {ls ahead : List Lexeme} {forest rest : List Tree} {t : Tree}
  {k : Kind}

theorem tokens (here : c.Before (l :: ls) forest) : ∃ s taken ts s', c.At s taken forest ∧
    s.Emits (taken ++ c.current :: ts) s' ∧ c.current.lexeme = l ∧ ts.map Token.lexeme = ls := by
  obtain ⟨s, taken, ts, s', placed, reads, same⟩ := here
  obtain ⟨t, us, rfl, first, others⟩ := List.map_eq_cons_iff.mp same
  have ahead := placed.reads.prefix_total reads
  simp only [List.prefix_append_right_inj, List.cons_prefix_cons] at ahead
  obtain rfl : c.current = t := ahead.elim (·.1) (·.1.symm)
  exact ⟨s, taken, us, s', placed, reads, first, others⟩

theorem kind (here : c.Before (l :: ls) forest) : c.current.kind = l.kind := by
  obtain ⟨-, -, -, -, -, -, same, -⟩ := here.tokens
  exact congrArg Lexeme.kind same

/-- A parse that looks at the current kind goes on with that of the first token. -/
theorem current {α : Type} {f : Kind → Parse α} {post : α → Cursor → Prop}
    (here : c.Before (l :: ls) forest) (more : Gives (f l.kind) c post) :
    Gives (Parse.current >>= f) c post := by
  rw [← here.kind] at more
  exact Gives.current.mpr more

/-- The token after the current one is pending, or the scanner gives it. -/
theorem second (here : c.Before (l :: m :: ls) forest) :
    (∃ u us, c.pending = u :: us ∧ u.lexeme = m) ∨
      c.pending = [] ∧ ∃ u s, c.scanner.next = (.ok u, s) ∧ u.lexeme = m := by
  obtain ⟨s, taken, ts, s', placed, reads, -, same⟩ := here.tokens
  obtain ⟨u, us, rfl, first, -⟩ := List.map_eq_cons_iff.mp same
  have before := placed.reads
  cases pending : c.pending with
  | cons v vs =>
    have ahead := before.prefix_total reads
    simp only [pending, List.prefix_append_right_inj, List.cons_prefix_cons, true_and] at ahead
    obtain rfl : v = u := ahead.elim (·.1) (·.1.symm)
    exact .inl ⟨v, vs, rfl, first⟩
  | nil =>
    rw [pending] at before
    rw [List.append_cons] at reads
    obtain ⟨after, read⟩ := reads.next before
    exact .inr ⟨rfl, u, after, read, first⟩

theorem shift (here : c.Before (l :: ls) forest) (more : ls ≠ []) :
    Gives Parse.shift c fun t c' => t.lexeme = l ∧ c'.Before ls forest := by
  obtain ⟨m, ls, rfl⟩ := List.exists_cons_of_ne_nil more
  obtain ⟨s, taken, ts, s', placed, reads, first, others⟩ := here.tokens
  have ran : ∃ c', c.shift = (.ok c.current, c') := by
    rw [Cursor.shift]
    rcases here.second with ⟨u, us, pending, -⟩ | ⟨pending, u, after, read, -⟩
    · simp [pending]
    · simp [pending, pull, read, note]
  obtain ⟨c', shifted⟩ := ran
  refine .perform (congrArg some shifted) ⟨first, s, taken ++ [c.current], ts, s', ?_, ?_, others⟩
  · exact (placed.shifted shifted).2
  · simpa using reads

theorem peek (here : c.Before (l :: m :: ls) forest) :
    Gives (Parse.peek 1) c fun k c' => k = m.kind ∧ c'.Before (l :: m :: ls) forest := by
  obtain ⟨s, taken, ts, s', placed, reads, first, others⟩ := here.tokens
  have ran : ∃ u c', c.peek 1 = (.ok u, c') ∧ u.lexeme = m := by
    rw [Cursor.peek, if_neg (by decide)]
    rcases here.second with ⟨u, us, pending, same⟩ | ⟨pending, u, after, read, same⟩
    · simp [pending, fill, same]
    · simp [pending, fill, pull, read, note, same]
  obtain ⟨u, c', peeked, same⟩ := ran
  have acted : Parse.act (Rule.run 0) (.peek 1) c = some (.ok u.kind, c') := by
    rw [Parse.act, peeked]
    rfl
  have later := (placed.peeked peeked).2
  refine .perform acted ⟨congrArg Lexeme.kind same, s, taken, c.current :: ts, s', later, reads, ?_⟩
  rw [List.map_cons, first, others]

theorem expect (here : c.Before (l :: ls) forest) (is : l.kind = k) (more : ls ≠ []) :
    Gives (Parse.expect k) c fun t c' => t.lexeme = l ∧ c'.Before ls forest := by
  simp only [Parse.expect, Gives.isAt, here.kind, is, decide_true, if_true]
  exact here.shift more

theorem accept (here : c.Before (l :: ls) forest) (is : l.kind = k) (more : ls ≠ []) :
    Gives (Parse.accept k) c fun b c' => b = true ∧ c'.Before ls forest := by
  have taken : Gives (Parse.accept? k) c fun o c' => o.isSome = true ∧ c'.Before ls forest := by
    simp only [Parse.accept?, Gives.isAt, here.kind, is, decide_true, if_true]
    exact (here.shift more).bind fun t c' later => .pure ⟨rfl, later.2⟩
  exact taken.bind fun o c' later => .pure later

/-- What is done to the arena leaves the tokens ahead. -/
theorem arena {c' : Cursor} {forest' : List Tree} (here : c.Before ahead forest)
    (done : ∀ s taken, c.At s taken forest → c'.At s taken forest') : c'.Before ahead forest' := by
  obtain ⟨s, taken, ts, s', placed, reads, same⟩ := here
  exact ⟨s, taken, ts, s', done s taken placed, reads, same⟩

theorem add (here : c.Before ahead forest) {ids : Shape NodeId} {token : Option Token}
    (rest : List Tree) (shape : Shape Tree) (same : ids = shape.map Tree.id)
    (split : forest = rest ++ shape.children) :
    Gives (Parse.add ids token) c fun i c' =>
      c'.Before ahead (rest ++ [.node i shape token false]) := by
  refine .perform rfl (here.arena fun s taken placed => ?_)
  have ensures := @At.add 0 c.point c s taken forest placed ids token rest shape same split
  exact (ensures.result _ _ rfl).2

theorem settle (here : c.Before ahead (forest ++ [t])) :
    Gives (Parse.settle t.id) c fun i c' =>
      i = t.grouped.freeze.id ∧ c'.Before ahead (forest ++ [t.grouped.freeze]) := by
  have told s taken (placed : c.At s taken (forest ++ [t])) :=
    (@At.settle 0 c.point c s taken forest t placed).result _ _ rfl
  obtain ⟨s, taken, _, _, placed, -, -⟩ := id here
  exact .perform rfl ⟨(told s taken placed).1,
    here.arena fun s taken placed => (told s taken placed).2.2⟩

theorem freeze (here : c.Before ahead (forest ++ [t])) :
    Gives (Parse.freeze t.id) c fun _ c' => c'.Before ahead (forest ++ [t.freeze]) := by
  refine .perform rfl (here.arena fun s taken placed => ?_)
  exact ((@At.freeze 0 c.point c s taken forest t placed).result _ _ rfl).2

theorem inspect (here : c.Before ahead forest) (id : NodeId) :
    Gives (Parse.inspect id) c fun _ c' => c'.Before ahead forest :=
  .perform rfl here

theorem announce (here : c.Before ahead forest) :
    Gives Parse.announce c fun _ c' => c'.Before ahead forest := by
  refine .perform rfl (here.arena fun s taken placed => ?_)
  exact ((@At.announce 0 c.point c s taken forest placed).result _ _ rfl).2

end Before
end Cursor
end ScriptSyntax
