import ScriptSyntax.Program

/-! Where a parse gets among tokens of given kinds. A number with a minus is read only behind what
ends no operand, and that is how the places where operands end are told. -/
namespace ScriptSyntax

variable {kinds : Nat → Kind} {i j : Nat}

/-- What stands at the place is no number with a minus: it is no number at all, or it comes right
behind what ends an operand. -/
def Unsigned (kinds : Nat → Kind) (i : Nat) : Prop :=
  kinds i ∉ [.intVal, .realVal] ∨ ∃ j, i = j + 1 ∧ Scanner.endsOperand (kinds j) = true

/-- The place is right behind a `>`. -/
def Closed (kinds : Nat → Kind) (i : Nat) : Prop := ∃ j, i = j + 1 ∧ kinds j = .greaterThan

theorem Unsigned.of_ends (ends : Scanner.endsOperand (kinds i) = true) : Unsigned kinds (i + 1) :=
  .inr ⟨i, rfl, ends⟩

theorem Unsigned.of_kind {k : Kind} (is : kinds i = k) (ends : Scanner.endsOperand k = true) :
    Unsigned kinds (i + 1) :=
  .of_ends (is ▸ ends)

/-- Whether no number is among the kinds. -/
def unnumbered (stops : List Kind) : Bool := !stops.contains .intVal && !stops.contains .realVal

theorem Unsigned.of_stop {stops : List Kind} (plain : unnumbered stops = true)
    (found : stops.contains (kinds i) = true) : Unsigned kinds i := by
  simp only [unnumbered, List.contains_eq_mem, Bool.and_eq_true, Bool.not_eq_true',
    decide_eq_false_iff_not] at plain
  rw [List.contains_iff_mem] at found
  refine .inl fun number => ?_
  simp only [List.mem_cons, List.not_mem_nil, or_false] at number
  rcases number with is | is <;> rw [is] at found
  · exact plain.1 found
  · exact plain.2 found

namespace Rule

/-- Where the rule may be called. -/
def Enters (kinds : Nat → Kind) (i : Nat) : {y : Yield} → Rule y → Prop
  | _, suffix _ => Unsigned kinds i
  | _, weave _ stops _ => unnumbered stops = true ∧ (Unsigned kinds i ∨ Closed kinds i)
  | _, expression stops _ | _, term stops | _, items stops _ => unnumbered stops = true
  | _, _ => True

/-- Where the rule gets to when it succeeds. -/
def Leaves (kinds : Nat → Kind) (j : Nat) : {y : Yield} → Rule y → Prop
  | _, suffix _ => Unsigned kinds j
  | _, weave .. | _, expression .. | _, term _ => Unsigned kinds j ∨ Closed kinds j
  | _, _ => True

end Rule

namespace Parse

variable {α β : Type} {p : Parse α} {f : α → Parse β}

/-- How a parse goes on from a place among tokens of these kinds, so that it calls rules where they
may be called and each of its results is as described. -/
def Treads {α : Type} (kinds : Nat → Kind) : Parse α → Nat → (α → Nat → Prop) → Prop
  | done a, i, post => post a i
  | fail .., _, _ => True
  | step .current next, i, post => (next (kinds i)).Treads kinds i post
  | step (.peek distance) next, i, post => (next (kinds (i + distance))).Treads kinds i post
  | step .shift next, i, post => ∀ t, (next t).Treads kinds (i + 1) post
  | step (.call rule) next, i, post =>
    rule.Enters kinds i ∧ ∀ a j, rule.Leaves kinds j → (next a).Treads kinds j post
  | step _ next, i, post => ∀ answer, (next answer).Treads kinds i post

theorem Treads.imp {post post' : α → Nat → Prop} (treads : p.Treads kinds i post)
    (weaken : ∀ a j, post a j → post' a j) : p.Treads kinds i post' := by
  induction p generalizing i with
  | done a => exact weaken a i treads
  | fail blame fault => trivial
  | step action next ih =>
    cases action with
    | current => exact ih _ treads
    | peek distance => exact ih _ treads
    | shift => exact fun t => ih t (treads t)
    | call rule => exact ⟨treads.1, fun a j ends => ih a (treads.2 a j ends)⟩
    | _ => exact fun answer => ih answer (treads answer)

@[simp] theorem treads_bind {post : β → Nat → Prop} :
    (p >>= f).Treads kinds i post ↔ p.Treads kinds i fun a j => (f a).Treads kinds j post := by
  change (p.bind f).Treads kinds i post ↔ _
  induction p generalizing i with
  | done a => exact Iff.rfl
  | fail blame fault => exact Iff.rfl
  | step action next ih =>
    cases action with
    | current => exact ih _
    | peek distance => exact ih _
    | shift => exact forall_congr' fun t => ih t
    | call rule =>
      exact and_congr_right fun _ => forall_congr' fun a => forall_congr' fun _ =>
        forall_congr' fun _ => ih a
    | _ => exact forall_congr' fun answer => ih answer

theorem Treads.bind {mid : α → Nat → Prop} {post : β → Nat → Prop} (first : p.Treads kinds i mid)
    (rest : ∀ a j, mid a j → (f a).Treads kinds j post) : (p >>= f).Treads kinds i post :=
  treads_bind.mpr (first.imp rest)

@[simp] theorem treads_map {g : α → β} {post : β → Nat → Prop} :
    (g <$> p).Treads kinds i post ↔ p.Treads kinds i fun a j => post (g a) j := by
  rw [map_eq_pure_bind, treads_bind]
  rfl

@[simp] theorem treads_ite {c : Prop} [Decidable c] {q : Parse α} {post : α → Nat → Prop} :
    (if c then p else q).Treads kinds i post ↔
      if c then p.Treads kinds i post else q.Treads kinds i post := by
  split <;> rfl

@[simp] theorem treads_pure {a : α} {post : α → Nat → Prop} :
    (pure a : Parse α).Treads kinds i post ↔ post a i := Iff.rfl

@[simp] theorem treads_fail {blame : Blame} {fault : String → Fault} {post : α → Nat → Prop} :
    (fail blame fault : Parse α).Treads kinds i post ↔ True := Iff.rfl

@[simp] theorem treads_unexpected {post : α → Nat → Prop} :
    (unexpected : Parse α).Treads kinds i post ↔ True := Iff.rfl

@[simp] theorem treads_unexpectedBecause {message : String} {post : α → Nat → Prop} :
    (unexpectedBecause message : Parse α).Treads kinds i post ↔ True := Iff.rfl

@[simp] theorem treads_current {post : Kind → Nat → Prop} :
    current.Treads kinds i post ↔ post (kinds i) i := Iff.rfl

@[simp] theorem treads_isAt {k : Kind} {post : Bool → Nat → Prop} :
    (isAt k).Treads kinds i post ↔ post (decide (kinds i = k)) i := Iff.rfl

@[simp] theorem treads_isAtAny {ks : List Kind} {post : Bool → Nat → Prop} :
    (isAtAny ks).Treads kinds i post ↔ post (ks.contains (kinds i)) i := Iff.rfl

@[simp] theorem treads_peek {distance : Nat} {post : Kind → Nat → Prop} :
    (peek distance).Treads kinds i post ↔ post (kinds (i + distance)) i := Iff.rfl

@[simp] theorem treads_shift {post : Token → Nat → Prop} :
    shift.Treads kinds i post ↔ ∀ t, post t (i + 1) := Iff.rfl

@[simp] theorem treads_add {shape : Shape NodeId} {token : Option Token}
    {post : NodeId → Nat → Prop} :
    (add shape token).Treads kinds i post ↔ ∀ id, post id i := Iff.rfl

@[simp] theorem treads_inspect {id : NodeId} {post : Profile → Nat → Prop} :
    (inspect id).Treads kinds i post ↔ ∀ profile, post profile i := Iff.rfl

@[simp] theorem treads_settle {id : NodeId} {post : NodeId → Nat → Prop} :
    (settle id).Treads kinds i post ↔ ∀ top, post top i := Iff.rfl

@[simp] theorem treads_freeze {id : NodeId} {post : Unit → Nat → Prop} :
    (freeze id).Treads kinds i post ↔ post () i :=
  ⟨fun treads => treads (), fun holds _ => holds⟩

@[simp] theorem treads_announce {post : Unit → Nat → Prop} :
    announce.Treads kinds i post ↔ post () i :=
  ⟨fun treads => treads (), fun holds _ => holds⟩

@[simp] theorem treads_call {y : Yield} {rule : Rule y} {post : y.Value → Nat → Prop} :
    @Treads (no_index y.Value) kinds (call rule) i post ↔
      rule.Enters kinds i ∧ ∀ a j, rule.Leaves kinds j → post a j := Iff.rfl

@[simp] theorem treads_expect {k : Kind} {post : Token → Nat → Prop} :
    (expect k).Treads kinds i post ↔ (kinds i = k → ∀ t, post t (i + 1)) := by
  by_cases found : kinds i = k <;> simp [expect, found]

@[simp] theorem treads_expectAny {ks : List Kind} {post : Token → Nat → Prop} :
    (expectAny ks).Treads kinds i post ↔ (kinds i ∈ ks → ∀ t, post t (i + 1)) := by
  by_cases found : kinds i ∈ ks <;> simp [expectAny, found]

@[simp] theorem treads_accept? {k : Kind} {post : Option Token → Nat → Prop} :
    (accept? k).Treads kinds i post ↔
      if kinds i = k then ∀ t, post (some t) (i + 1) else post none i := by
  by_cases found : kinds i = k <;> simp [accept?, found]

@[simp] theorem treads_accept {k : Kind} {post : Bool → Nat → Prop} :
    (accept k).Treads kinds i post ↔
      if kinds i = k then post true (i + 1) else post false i := by
  by_cases found : kinds i = k <;> simp [accept, found]

theorem accept?_treads (k : Kind) : (accept? k).Treads kinds i fun _ _ => True := by
  simp

theorem accept_treads (k : Kind) : (accept k).Treads kinds i fun _ _ => True := by
  simp

theorem call_treads {y : Yield} {rule : Rule y} (enters : rule.Enters kinds i) :
    (call rule).Treads kinds i fun _ j => rule.Leaves kinds j :=
  ⟨enters, fun _ _ leaves => leaves⟩

theorem expectAny_treads (ks : List Kind) : (expectAny ks).Treads kinds i fun _ _ => True := by
  simp

theorem expect_treads (k : Kind) : (expect k).Treads kinds i fun _ _ => True := by
  simp

/-- A token that ends an operand is taken. -/
theorem closer_treads {k : Kind} (ends : Scanner.endsOperand k = true) :
    (expect k).Treads kinds i fun _ j => Unsigned kinds j :=
  treads_expect.mpr fun found _ => .of_kind found ends

end Parse
end ScriptSyntax
