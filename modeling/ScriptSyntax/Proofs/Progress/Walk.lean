import ScriptSyntax.Program

/-! Progress of a parse, read off its actions alone. Whatever the answers are, a parse takes no end
of input, looks ahead within the limit, fails with faults of the grammar, and before it takes a
token calls rules of lower rank only. -/
namespace ScriptSyntax

namespace Fault

/-- Whether the fault is one that the grammar may find. -/
def IsGrammatical : Fault → Prop
  | unrecognisedCharacter .. | unterminatedString .. | unterminatedComment
  | lookaheadExceeded .. => False
  | _ => True

variable {f : Fault}

theorem IsGrammatical.syntactic (grammatical : f.IsGrammatical) : f.faultClass = .syntactic := by
  cases f <;> first | rfl | exact grammatical.elim

theorem IsGrammatical.ne_lookaheadExceeded (grammatical : f.IsGrammatical) (depth : Nat) :
    f ≠ .lookaheadExceeded depth := by
  rintro rfl
  exact grammatical

end Fault

/-- Rules that do not take a token before they call another one rank above it. -/
def Rule.rank : {y : Yield} → Rule y → Nat
  | _, expression .. | _, typeTerms => 1
  | _, items .. | _, statement | _, entries _ => 2
  | _, statements _ | _, members | _, sections => 3
  | _, _ => 0

theorem Rule.rank_le {y : Yield} (rule : Rule y) : rule.rank ≤ 3 := by
  cases rule <;> simp [rank]

/-- Whether each success of the rule takes a token. -/
def Rule.moves : {y : Yield} → Rule y → Bool
  | _, statement | _, term _ | _, typeTerm | _, typeTerms | _, branches _ | _, instances => true
  | _, _ => false

namespace Parse

/-- How a parse of the rank goes on from a token of kind `kind`, after a token was taken or not,
so that each of its results is as described. -/
def Proceeds {α : Type} (rank : Nat) : Parse α → Bool → Kind →
    (α → Bool → Kind → Prop) → Prop
  | done a, moved, kind, post => post a moved kind
  | fail _ fault, _, _, _ => ∀ token, (fault token).IsGrammatical
  | step .current next, moved, kind, post => (next kind).Proceeds rank moved kind post
  | step (.peek depth) next, moved, kind, post =>
    (0 < depth ∧ depth ≤ maxLookahead) ∧ ∀ k, (next k).Proceeds rank moved kind post
  | step .shift next, _, kind, post =>
    kind ≠ .eof ∧ ∀ t k, (next t).Proceeds rank true k post
  | step (.call rule) next, moved, _, post =>
    (moved = true ∨ rule.rank < rank) ∧
      ∀ a k, (next a).Proceeds rank (moved || rule.moves) k post
  | step _ next, moved, kind, post => ∀ answer, (next answer).Proceeds rank moved kind post

variable {α β : Type} {rank : Nat} {moved : Bool} {kind : Kind} {p : Parse α} {f : α → Parse β}
  {post : α → Bool → Kind → Prop}

/-- A parse whose results all come after a token that was taken. -/
abbrev Moves (p : Parse α) (rank : Nat) (moved : Bool) (kind : Kind) : Prop :=
  p.Proceeds rank moved kind fun _ moved' _ => moved' = true

theorem Proceeds.imp {post' : α → Bool → Kind → Prop} (walk : p.Proceeds rank moved kind post)
    (weaken : ∀ a m k, post a m k → post' a m k) : p.Proceeds rank moved kind post' := by
  induction p generalizing moved kind with
  | done a => exact weaken a moved kind walk
  | fail blame fault => exact walk
  | step action next ih =>
    cases action with
    | current => exact ih kind walk
    | peek depth => exact ⟨walk.1, fun k => ih k (walk.2 k)⟩
    | shift => exact ⟨walk.1, fun t k => ih t (walk.2 t k)⟩
    | call rule => exact ⟨walk.1, fun a k => ih a (walk.2 a k)⟩
    | _ => exact fun a => ih a (walk a)

/-- What need not hold where no token has to be taken. -/
theorem Proceeds.still {needed : Bool} (walk : p.Proceeds rank moved kind fun _ _ _ => True)
    (never : needed = false) :
    p.Proceeds rank moved kind fun _ moved' _ => needed = true → moved' = true :=
  walk.imp fun _ _ _ _ asked => by simp [never] at asked

@[simp] theorem proceeds_bind {post : β → Bool → Kind → Prop} :
    (p >>= f).Proceeds rank moved kind post ↔
      p.Proceeds rank moved kind fun a m k => (f a).Proceeds rank m k post := by
  change (p.bind f).Proceeds rank moved kind post ↔ _
  induction p generalizing moved kind with
  | done a => exact Iff.rfl
  | fail blame fault => exact Iff.rfl
  | step action next ih =>
    cases action with
    | current => exact ih kind
    | peek depth => exact and_congr_right fun _ => forall_congr' fun k => ih k
    | shift => exact and_congr_right fun _ => forall_congr' fun t => forall_congr' fun _ => ih t
    | call rule => exact and_congr_right fun _ => forall_congr' fun a => forall_congr' fun _ => ih a
    | _ => exact forall_congr' fun a => ih a

@[simp] theorem proceeds_map {g : α → β} {post : β → Bool → Kind → Prop} :
    (g <$> p).Proceeds rank moved kind post ↔
      p.Proceeds rank moved kind fun a m k => post (g a) m k := by
  rw [map_eq_pure_bind, proceeds_bind]
  rfl

theorem Moves.bind {post : β → Bool → Kind → Prop} (first : Moves p rank moved kind)
    (rest : ∀ a k, (f a).Proceeds rank true k post) : (p >>= f).Proceeds rank moved kind post := by
  refine proceeds_bind.mpr (first.imp ?_)
  rintro a m k rfl
  exact rest a k

@[simp] theorem proceeds_pure {a : α} :
    (pure a : Parse α).Proceeds rank moved kind post ↔ post a moved kind := Iff.rfl

@[simp] theorem proceeds_fail {blame : Blame} {fault : String → Fault} :
    (.fail blame fault : Parse α).Proceeds rank moved kind post ↔
      ∀ token, (fault token).IsGrammatical := Iff.rfl

@[simp] theorem proceeds_unexpected :
    (unexpected : Parse α).Proceeds rank moved kind post ↔ True :=
  iff_true_intro fun _ => trivial

@[simp] theorem proceeds_unexpectedBecause {message : String} :
    (unexpectedBecause message : Parse α).Proceeds rank moved kind post ↔ True :=
  iff_true_intro fun _ => trivial

@[simp] theorem proceeds_current {post : Kind → Bool → Kind → Prop} :
    current.Proceeds rank moved kind post ↔ post kind moved kind := Iff.rfl

@[simp] theorem proceeds_isAt {k : Kind} {post : Bool → Bool → Kind → Prop} :
    (isAt k).Proceeds rank moved kind post ↔ post (decide (kind = k)) moved kind := Iff.rfl

@[simp] theorem proceeds_isAtAny {ks : List Kind} {post : Bool → Bool → Kind → Prop} :
    (isAtAny ks).Proceeds rank moved kind post ↔ post (ks.contains kind) moved kind := Iff.rfl

@[simp] theorem proceeds_peek {depth : Nat} {post : Kind → Bool → Kind → Prop} :
    (peek depth).Proceeds rank moved kind post ↔
      (0 < depth ∧ depth ≤ maxLookahead) ∧ ∀ k, post k moved kind := Iff.rfl

@[simp] theorem proceeds_shift {post : Token → Bool → Kind → Prop} :
    shift.Proceeds rank moved kind post ↔ kind ≠ .eof ∧ ∀ t k, post t true k := Iff.rfl

@[simp] theorem proceeds_add {shape : Shape NodeId} {token : Option Token}
    {post : NodeId → Bool → Kind → Prop} :
    (add shape token).Proceeds rank moved kind post ↔ ∀ id, post id moved kind := Iff.rfl

@[simp] theorem proceeds_inspect {id : NodeId} {post : Profile → Bool → Kind → Prop} :
    (inspect id).Proceeds rank moved kind post ↔ ∀ profile, post profile moved kind := Iff.rfl

@[simp] theorem proceeds_settle {id : NodeId} {post : NodeId → Bool → Kind → Prop} :
    (settle id).Proceeds rank moved kind post ↔ ∀ top, post top moved kind := Iff.rfl

@[simp] theorem proceeds_freeze {id : NodeId} {post : Unit → Bool → Kind → Prop} :
    (freeze id).Proceeds rank moved kind post ↔ post () moved kind :=
  ⟨fun walk => walk (), fun holds _ => holds⟩

@[simp] theorem proceeds_announce {post : Unit → Bool → Kind → Prop} :
    announce.Proceeds rank moved kind post ↔ post () moved kind :=
  ⟨fun walk => walk (), fun holds _ => holds⟩

@[simp] theorem proceeds_call {y : Yield} {rule : Rule y} {post : y.Value → Bool → Kind → Prop} :
    @Proceeds (no_index y.Value) rank (call rule) moved kind post ↔
      (moved = true ∨ rule.rank < rank) ∧ ∀ a k, post a (moved || rule.moves) k := Iff.rfl

@[simp] theorem proceeds_expect {k : Kind} {post : Token → Bool → Kind → Prop} :
    (expect k).Proceeds rank moved kind post ↔
      (kind = k → k ≠ .eof ∧ ∀ t k', post t true k') := by
  by_cases found : kind = k
  · simp [expect, found]
  · simp only [expect, proceeds_bind, proceeds_isAt, found, false_implies, iff_true]
    exact fun _ => trivial

@[simp] theorem proceeds_expectAny {ks : List Kind} {post : Token → Bool → Kind → Prop} :
    (expectAny ks).Proceeds rank moved kind post ↔
      (kind ∈ ks → kind ≠ .eof ∧ ∀ t k', post t true k') := by
  by_cases found : kind ∈ ks
  · simp [expectAny, found]
  · simp only [expectAny, proceeds_bind, proceeds_isAtAny, List.contains_eq_mem, found,
      false_implies, iff_true]
    exact fun _ => trivial

@[simp] theorem proceeds_accept? {k : Kind} {post : Option Token → Bool → Kind → Prop} :
    (accept? k).Proceeds rank moved kind post ↔
      if kind = k then k ≠ .eof ∧ ∀ t k', post (some t) true k' else post none moved kind := by
  by_cases found : kind = k <;> simp [accept?, found]

@[simp] theorem proceeds_accept {k : Kind} {post : Bool → Bool → Kind → Prop} :
    (accept k).Proceeds rank moved kind post ↔
      if kind = k then k ≠ .eof ∧ ∀ k', post true true k' else post false moved kind := by
  by_cases found : kind = k <;> simp [accept, found]

theorem expect_moves {k : Kind} (more : k ≠ .eof) : Moves (expect k) rank moved kind := by
  simp [more]

theorem expectAny_moves {ks : List Kind} (more : .eof ∉ ks) :
    Moves (expectAny ks) rank moved kind := by
  refine proceeds_expectAny.mpr fun found => ⟨?_, by simp⟩
  rintro rfl
  exact more found

/-- A token is taken where the kind has a property that the end of input lacks. -/
theorem shift_moves_of {P : Kind → Bool} (has : P kind = true) (lacks : P .eof = false) :
    Moves shift rank moved kind := by
  refine proceeds_shift.mpr ⟨?_, fun _ _ => rfl⟩
  rintro rfl
  simp [lacks] at has

theorem shift_moves (more : kind ≠ .eof) : Moves shift rank moved kind := by
  simp [more]

theorem accept_moves {k : Kind} (more : k ≠ .eof) : Moves (accept k) rank true kind := by
  simp [more]

theorem accept?_moves {k : Kind} (more : k ≠ .eof) : Moves (accept? k) rank true kind := by
  simp [more]

/-- An optional token is taken, or the parse is where it was. -/
theorem accept?_keeps {k : Kind} (more : k ≠ .eof) :
    (accept? k).Proceeds rank moved kind fun _ moved' _ => moved = true → moved' = true := by
  rw [proceeds_accept?]
  split <;> simp [more]

theorem accept_keeps {k : Kind} (more : k ≠ .eof) :
    (accept k).Proceeds rank moved kind fun _ moved' _ => moved = true → moved' = true := by
  rw [proceeds_accept]
  split <;> simp [more]

/-- After a token was taken any rule may be called. -/
theorem call_moves {y : Yield} (rule : Rule y) : Moves (call rule) rank true kind := by
  simp

/-- Before a token is taken the rule has to be of lower rank. -/
theorem lower_moves {y : Yield} {rule : Rule y} (below : rule.rank < rank)
    (moves : rule.moves = true) : Moves (call rule) rank moved kind := by
  simp [below, moves]

end Parse
end ScriptSyntax
