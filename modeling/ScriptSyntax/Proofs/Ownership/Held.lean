import ScriptSyntax.Grammar.Statement

/-! The nodes that a parse has in hand: those that it made or was given and that hang nowhere yet.
It hangs, regroups and finishes only the last of them, in the order in which they were made. This is
read off the actions of a parse, whatever the answers are. -/
namespace ScriptSyntax

/-- The nodes that a value is made of, the last one first. -/
def Yield.held : (y : Yield) → y.Value → List NodeId
  | node, id => [id]
  | nodes, ids => ids.reverse
  | pairs, ps => (ps.flatMap fun p => [p.1, p.2]).reverse
  | sections, ss => ss.flatten.reverse
  | branches, (bs, otherwise) => (bs ++ otherwise.toList).reverse
  | tokens, _ | type, _ | types, _ => []

/-- The node that a rule is given to build on. -/
def Rule.takes : {y : Yield} → Rule y → List NodeId
  | _, weave left .. => [left]
  | _, suffix operand => [operand]
  | _, _ => []

namespace Parse

/-- How a parse goes on with the nodes `held` in hand, the last one first, so that each of its
results leaves in hand what is described. -/
def Owns {α : Type} : Parse α → List NodeId → (α → List NodeId → Prop) → Prop
  | done a, held, post => post a held
  | fail .., _, _ => True
  | step (.add shape _) next, held, post =>
    ∃ rest, held = shape.children.reverse ++ rest ∧ ∀ id, (next id).Owns (id :: rest) post
  | step (.settle id) next, held, post =>
    ∃ rest, held = id :: rest ∧ ∀ top, (next top).Owns (top :: rest) post
  | step (.freeze id) next, held, post =>
    (∃ rest, held = id :: rest) ∧ ∀ answer, (next answer).Owns held post
  | step (@Action.call y rule) next, held, post =>
    ∃ rest, held = rule.takes ++ rest ∧ ∀ a, (next a).Owns (y.held a ++ rest) post
  | step _ next, held, post => ∀ answer, (next answer).Owns held post

variable {α β : Type} {held rest : List NodeId} {p : Parse α} {f : α → Parse β}
  {post : α → List NodeId → Prop}

@[simp] theorem owns_bind {post : β → List NodeId → Prop} :
    (p >>= f).Owns held post ↔ p.Owns held fun a held => (f a).Owns held post := by
  change (p.bind f).Owns held post ↔ _
  induction p generalizing held with
  | done a => exact Iff.rfl
  | fail blame fault => exact Iff.rfl
  | step action next ih =>
    cases action with
    | add shape token =>
      exact exists_congr fun rest => and_congr_right fun _ => forall_congr' fun id => ih id
    | settle id =>
      exact exists_congr fun rest => and_congr_right fun _ => forall_congr' fun top => ih top
    | freeze id => exact and_congr_right fun _ => forall_congr' fun answer => ih answer
    | call rule =>
      exact exists_congr fun rest => and_congr_right fun _ => forall_congr' fun a => ih a
    | _ => exact forall_congr' fun answer => ih answer

@[simp] theorem owns_map {g : α → β} {post : β → List NodeId → Prop} :
    (g <$> p).Owns held post ↔ p.Owns held fun a held => post (g a) held := by
  rw [map_eq_pure_bind, owns_bind]
  rfl

@[simp] theorem owns_pure {a : α} : (pure a : Parse α).Owns held post ↔ post a held := Iff.rfl

@[simp] theorem owns_fail {blame : Blame} {fault : String → Fault} :
    (.fail blame fault : Parse α).Owns held post ↔ True := Iff.rfl

@[simp] theorem owns_unexpected : (unexpected : Parse α).Owns held post ↔ True := Iff.rfl

@[simp] theorem owns_unexpectedBecause {message : String} :
    (unexpectedBecause message : Parse α).Owns held post ↔ True := Iff.rfl

@[simp] theorem owns_ite {c : Prop} [Decidable c] {q : Parse α} :
    (if c then p else q).Owns held post ↔ if c then p.Owns held post else q.Owns held post := by
  split <;> rfl

@[simp] theorem owns_current {post : Kind → List NodeId → Prop} :
    current.Owns held post ↔ ∀ kind, post kind held := Iff.rfl

@[simp] theorem owns_isAt {k : Kind} {post : Bool → List NodeId → Prop} :
    (isAt k).Owns held post ↔ ∀ found, post found held := by
  simp only [isAt, owns_bind, owns_current, owns_pure]
  constructor
  · intro all found
    cases found with
    | true => simpa using all k
    | false =>
      obtain ⟨other, apart⟩ : ∃ other, other ≠ k := by
        cases k
        case eol => exact ⟨.eof, by decide⟩
        all_goals exact ⟨.eol, by decide⟩
      simpa [apart] using all other
  · exact fun all kind => all _

@[simp] theorem owns_isAtAny {ks : List Kind} {post : Bool → List NodeId → Prop} :
    (isAtAny ks).Owns held post ↔ ∀ kind, post (ks.contains kind) held := Iff.rfl

@[simp] theorem owns_peek {depth : Nat} {post : Kind → List NodeId → Prop} :
    (peek depth).Owns held post ↔ ∀ kind, post kind held := Iff.rfl

@[simp] theorem owns_shift {post : Token → List NodeId → Prop} :
    shift.Owns held post ↔ ∀ token, post token held := Iff.rfl

@[simp] theorem owns_inspect {id : NodeId} {post : Profile → List NodeId → Prop} :
    (inspect id).Owns held post ↔ ∀ profile, post profile held := Iff.rfl

@[simp] theorem owns_announce {post : Unit → List NodeId → Prop} :
    announce.Owns held post ↔ post () held :=
  ⟨fun owns => owns (), fun holds _ => holds⟩

@[simp] theorem owns_add {shape : Shape NodeId} {token : Option Token}
    {post : NodeId → List NodeId → Prop} :
    (add shape token).Owns held post ↔
      ∃ rest, held = shape.children.reverse ++ rest ∧ ∀ id, post id (id :: rest) := Iff.rfl

@[simp] theorem owns_settle {id : NodeId} {post : NodeId → List NodeId → Prop} :
    (settle id).Owns held post ↔ ∃ rest, held = id :: rest ∧ ∀ top, post top (top :: rest) :=
  Iff.rfl

@[simp] theorem owns_freeze {id : NodeId} {post : Unit → List NodeId → Prop} :
    (freeze id).Owns held post ↔ (∃ rest, held = id :: rest) ∧ post () held :=
  and_congr_right fun _ => ⟨fun owns => owns (), fun holds _ => holds⟩

@[simp] theorem owns_call {y : Yield} {rule : Rule y} {post : y.Value → List NodeId → Prop} :
    @Owns (no_index y.Value) (call rule) held post ↔
      ∃ rest, held = rule.takes ++ rest ∧ ∀ a, post a (y.held a ++ rest) := Iff.rfl

@[simp] theorem owns_expect {k : Kind} {post : Token → List NodeId → Prop} :
    (expect k).Owns held post ↔ ∀ token, post token held := by
  simp [expect]

@[simp] theorem owns_accept? {k : Kind} {post : Option Token → List NodeId → Prop} :
    (accept? k).Owns held post ↔ ∀ found, post found held := by
  simp only [accept?, owns_bind, owns_isAt, owns_ite, owns_shift, owns_pure]
  constructor
  · intro all found
    cases found with
    | none => simpa using all false
    | some token => simpa using all true token
  · intro all found
    split
    · exact fun token => all (some token)
    · exact all none

@[simp] theorem owns_accept {k : Kind} {post : Bool → List NodeId → Prop} :
    (accept k).Owns held post ↔ ∀ found, post found held := by
  simp [accept, Option.forall]

theorem Owns.imp {post' : α → List NodeId → Prop} (owns : p.Owns held post)
    (weaken : ∀ a held, post a held → post' a held) : p.Owns held post' := by
  induction p generalizing held with
  | done a => exact weaken a held owns
  | fail blame fault => trivial
  | step action next ih =>
    cases action with
    | add shape token =>
      obtain ⟨rest, split, later⟩ := owns
      exact ⟨rest, split, fun id => ih id (later id)⟩
    | settle id =>
      obtain ⟨rest, split, later⟩ := owns
      exact ⟨rest, split, fun top => ih top (later top)⟩
    | freeze id => exact ⟨owns.1, fun answer => ih answer (owns.2 answer)⟩
    | call rule =>
      obtain ⟨rest, split, later⟩ := owns
      exact ⟨rest, split, fun a => ih a (later a)⟩
    | _ => exact fun answer => ih answer (owns answer)

end Parse
end ScriptSyntax
