import ScriptSyntax.Grammar.Statement
import ScriptSyntax.Proofs.Progress.Lookahead
import ScriptSyntax.Proofs.Scan.Catalog

/-! How a parse comes to the body of a directive or construct. The keyword tells what stands between
it and the braces, and a parse that takes the keyword goes on with just that. No parse looks ahead
from such a keyword or past one. -/
namespace ScriptSyntax

open Grammar

/-- What is still to be taken before the braces of a body. -/
inductive Stage where
  /-- Parentheses, and then an arrow. -/
  | header
  /-- What is left of the parentheses, and then an arrow. -/
  | inside
  | arrow
  /-- A declaration with types. -/
  | declaration
  | braces
deriving DecidableEq

namespace Kind

/-- What stands between a keyword and the braces of its body, where they may be the one token `{}`.
A switch wants two. -/
def stage? : Kind → Option Stage
  | ifKw | loopKw | funcKw | classKw | structKw | interfaceKw => some .header
  | elseKw => some .arrow
  | catchKw => some .declaration
  | tryKw => some .braces
  | _ => none

/-- Kinds that nothing is looked ahead from or past. -/
def isBlunt (k : Kind) : Bool := k.stage?.isSome || [parClose, greaterThan].contains k

variable {k : Kind} {stage : Stage}

theorem isBlunt_of_stage? (opens : k.stage? = some stage) : k.isBlunt = true := by
  simp [isBlunt, opens]

/-- Kinds with a property that no keyword of a body has. -/
theorem stage?_eq_none {P : Kind → Bool}
    (checked : all.all (fun k => !P k || k.stage?.isNone) = true) (holds : P k = true) :
    k.stage? = none :=
  Option.isNone_iff_eq_none.mp (of_all checked holds)

end Kind

namespace Rule

/-- Rules that go on with nothing that was read before. -/
def isFresh : {y : Yield} → Rule y → Bool
  | _, weave .. | _, suffix _ | _, branches _ => false
  | _, _ => true

/-- The rules of types, which take some keywords for names. -/
def isTyping : {y : Yield} → Rule y → Bool
  | _, typeTerm | _, typeTerms => true
  | _, _ => false

end Rule

namespace Parse

/-- Parses that begin with what is still to be taken before the braces, and go on with these. -/
inductive Approaches : Stage → {α : Type} → Parse α → Prop where
  | bind {stage : Stage} {α β : Type} {p : Parse α} {f : α → Parse β} :
      Approaches stage p → Approaches stage (p >>= f)
  | call {stage : Stage} {y : Yield} {rule : Rule y} :
      Approaches stage rule.body → Approaches stage (call rule)
  | opener {α : Type} {f : Token → Parse α} :
      (∀ t, Approaches .inside (f t)) → Approaches .header (expect .parOpen >>= f)
  | inner {α : Type} {y : Yield} {rule : Rule y} {f : y.Value → Parse α} :
      rule.isFresh = true → (∀ a, Approaches .inside (f a)) →
      Approaches .inside (Parse.call rule >>= f)
  | colon {α : Type} {f : Bool → Parse α} :
      (∀ b, Approaches .inside (f b)) → Approaches .inside (accept .colon >>= f)
  | stuck {α : Type} {blame : Blame} {fault : String → Fault} :
      Approaches .inside (fail blame fault : Parse α)
  | closer {α : Type} {f : Token → Parse α} :
      (∀ t, Approaches .arrow (f t)) → Approaches .inside (expect .parClose >>= f)
  | arrow {α : Type} {f : Token → Parse α} :
      (∀ t, Approaches .braces (f t)) → Approaches .arrow (expect .direct >>= f)
  | unlessIf {α : Type} {f : Option Token → Parse α} :
      Approaches .arrow (f none) → Approaches .arrow (accept? .ifKw >>= f)
  | declared {α : Type} {f : NodeId → Parse α} :
      (∀ id, Approaches .braces (f id)) → Approaches .declaration (declaration true >>= f)
  | atBrace {α : Type} {f : Bool → Parse α} :
      Approaches .braces (f true) → Approaches .braces (isAtBrace >>= f)
  | block : Approaches .braces bracedBlock
  | members : Approaches .braces memberBody

variable {α β : Type} {p : Parse α} {f : α → Parse β} {kind : Kind} {clear : Nat}

/-- Parses that fail at a `(`. -/
def Balks : Parse α → Prop
  | fail .. => True
  | step .current next => (next .parOpen).Balks
  | _ => False

/-- How a parse goes on from a token of the kind that takes neither a type nor a keyword with a
body, where none of so many tokens ahead is blunt. It looks no farther than past these. -/
def Wary : Parse α → Kind → Nat → (α → Kind → Nat → Prop) → Prop
  | done a, kind, clear, post => post a kind clear
  | fail .., _, _, _ => True
  | step .current next, kind, clear, post => (next kind).Wary kind clear post
  | step (.peek distance) next, kind, clear, post =>
    kind.isBlunt = false ∧ distance ≤ clear + 1 ∧
      ∀ k, (next k).Wary kind (if k.isBlunt then clear else max clear distance) post
  | step .shift next, kind, _, post => kind.stage? = none ∧ ∀ t k, (next t).Wary k 0 post
  | step (.call rule) next, _, _, post =>
    rule.isTyping = false ∧ ∀ a k, (next a).Wary k 0 post
  | step _ next, kind, clear, post => ∀ answer, (next answer).Wary kind clear post

/-- How a parse goes on that looks ahead as a wary one does. If it is strict, it takes a keyword
only to come to the body then, and takes types only where no `(` may follow. -/
def Heeds (strict : Bool) : Parse α → Kind → Nat → Prop
  | done _, _, _ => True
  | fail .., _, _ => True
  | step .current next, kind, clear => (next kind).Heeds strict kind clear
  | step (.peek distance) next, kind, clear =>
    kind.isBlunt = false ∧ distance ≤ clear + 1 ∧
      ∀ k, (next k).Heeds strict kind (if k.isBlunt then clear else max clear distance)
  | step .shift next, kind, _ => ∀ t,
    (strict = true → ∀ stage, kind.stage? = some stage → Approaches stage (next t)) ∧
      ∀ k, (next t).Heeds strict k 0
  | step (.call rule) next, _, _ => ∀ a,
    (strict = true → rule.isTyping = true → (next a).Balks) ∧ ∀ k, (next a).Heeds strict k 0
  | step _ next, kind, clear => ∀ answer, (next answer).Heeds strict kind clear

/-! Wary parses. -/

section Wary

variable {post : α → Kind → Nat → Prop}

theorem Wary.imp {post' : α → Kind → Nat → Prop} (wary : p.Wary kind clear post)
    (weaken : ∀ a k n, post a k n → post' a k n) : p.Wary kind clear post' := by
  induction p generalizing kind clear with
  | done a => exact weaken a kind clear wary
  | fail blame fault => trivial
  | step action next ih =>
    cases action with
    | current => exact ih kind wary
    | peek distance => exact ⟨wary.1, wary.2.1, fun k => ih k (wary.2.2 k)⟩
    | shift => exact ⟨wary.1, fun t k => ih t (wary.2 t k)⟩
    | call rule => exact ⟨wary.1, fun a k => ih a (wary.2 a k)⟩
    | _ => exact fun a => ih a (wary a)

@[simp] theorem wary_bind {post : β → Kind → Nat → Prop} :
    (p >>= f).Wary kind clear post ↔ p.Wary kind clear fun a k n => (f a).Wary k n post := by
  change (p.bind f).Wary kind clear post ↔ _
  induction p generalizing kind clear with
  | done a => exact Iff.rfl
  | fail blame fault => exact Iff.rfl
  | step action next ih =>
    cases action with
    | current => exact ih kind
    | peek distance =>
      exact and_congr_right fun _ => and_congr_right fun _ => forall_congr' fun k => ih k
    | shift => exact and_congr_right fun _ => forall_congr' fun t => forall_congr' fun _ => ih t
    | call rule => exact and_congr_right fun _ => forall_congr' fun a => forall_congr' fun _ => ih a
    | _ => exact forall_congr' fun a => ih a

theorem Wary.andThen {post : β → Kind → Nat → Prop} (first : p.Wary kind clear fun _ _ _ => True)
    (rest : ∀ a k n, (f a).Wary k n post) : (p >>= f).Wary kind clear post :=
  wary_bind.mpr (first.imp fun a k n _ => rest a k n)

@[simp] theorem wary_map {g : α → β} {post : β → Kind → Nat → Prop} :
    (g <$> p).Wary kind clear post ↔ p.Wary kind clear fun a k n => post (g a) k n := by
  rw [map_eq_pure_bind, wary_bind]
  rfl

@[simp] theorem wary_pure {a : α} : (pure a : Parse α).Wary kind clear post ↔ post a kind clear :=
  Iff.rfl

@[simp] theorem wary_fail {blame : Blame} {fault : String → Fault} :
    (.fail blame fault : Parse α).Wary kind clear post ↔ True := Iff.rfl

@[simp] theorem wary_unexpected : (unexpected : Parse α).Wary kind clear post ↔ True := Iff.rfl

@[simp] theorem wary_unexpectedBecause {message : String} :
    (unexpectedBecause message : Parse α).Wary kind clear post ↔ True := Iff.rfl

@[simp] theorem wary_ite {c : Prop} [Decidable c] {q : Parse α} :
    (if c then p else q).Wary kind clear post ↔
      if c then p.Wary kind clear post else q.Wary kind clear post := by
  split <;> rfl

@[simp] theorem wary_current {post : Kind → Kind → Nat → Prop} :
    current.Wary kind clear post ↔ post kind kind clear := Iff.rfl

@[simp] theorem wary_isAt {k : Kind} {post : Bool → Kind → Nat → Prop} :
    (isAt k).Wary kind clear post ↔ post (decide (kind = k)) kind clear := Iff.rfl

@[simp] theorem wary_isAtAny {ks : List Kind} {post : Bool → Kind → Nat → Prop} :
    (isAtAny ks).Wary kind clear post ↔ post (ks.contains kind) kind clear := Iff.rfl

@[simp] theorem wary_peek {distance : Nat} {post : Kind → Kind → Nat → Prop} :
    (peek distance).Wary kind clear post ↔ kind.isBlunt = false ∧ distance ≤ clear + 1 ∧
      ∀ k, post k kind (if k.isBlunt then clear else max clear distance) := Iff.rfl

@[simp] theorem wary_shift {post : Token → Kind → Nat → Prop} :
    shift.Wary kind clear post ↔ kind.stage? = none ∧ ∀ t k, post t k 0 := Iff.rfl

@[simp] theorem wary_add {shape : Shape NodeId} {token : Option Token}
    {post : NodeId → Kind → Nat → Prop} :
    (add shape token).Wary kind clear post ↔ ∀ id, post id kind clear := Iff.rfl

@[simp] theorem wary_inspect {id : NodeId} {post : Profile → Kind → Nat → Prop} :
    (inspect id).Wary kind clear post ↔ ∀ profile, post profile kind clear := Iff.rfl

@[simp] theorem wary_settle {id : NodeId} {post : NodeId → Kind → Nat → Prop} :
    (settle id).Wary kind clear post ↔ ∀ top, post top kind clear := Iff.rfl

@[simp] theorem wary_freeze {id : NodeId} {post : Unit → Kind → Nat → Prop} :
    (freeze id).Wary kind clear post ↔ post () kind clear :=
  ⟨fun wary => wary (), fun holds _ => holds⟩

@[simp] theorem wary_announce {post : Unit → Kind → Nat → Prop} :
    announce.Wary kind clear post ↔ post () kind clear :=
  ⟨fun wary => wary (), fun holds _ => holds⟩

@[simp] theorem wary_call {y : Yield} {rule : Rule y} {post : y.Value → Kind → Nat → Prop} :
    @Wary (no_index y.Value) (call rule) kind clear post ↔
      rule.isTyping = false ∧ ∀ a k, post a k 0 := Iff.rfl

@[simp] theorem wary_expect {k : Kind} {post : Token → Kind → Nat → Prop} :
    (expect k).Wary kind clear post ↔
      (kind = k → k.stage? = none ∧ ∀ t k', post t k' 0) := by
  by_cases found : kind = k <;> simp [expect, found]

@[simp] theorem wary_expectAny {ks : List Kind} {post : Token → Kind → Nat → Prop} :
    (expectAny ks).Wary kind clear post ↔
      (kind ∈ ks → kind.stage? = none ∧ ∀ t k', post t k' 0) := by
  by_cases found : kind ∈ ks <;> simp [expectAny, found]

@[simp] theorem wary_accept? {k : Kind} {post : Option Token → Kind → Nat → Prop} :
    (accept? k).Wary kind clear post ↔
      if kind = k then k.stage? = none ∧ ∀ t k', post (some t) k' 0
      else post none kind clear := by
  by_cases found : kind = k <;> simp [accept?, found]

@[simp] theorem wary_accept {k : Kind} {post : Bool → Kind → Nat → Prop} :
    (accept k).Wary kind clear post ↔
      if kind = k then k.stage? = none ∧ ∀ k', post true k' 0 else post false kind clear := by
  by_cases found : kind = k <;> simp [accept, found]

end Wary

/-! Parses that heed the keywords. -/

variable {strict : Bool}

theorem Wary.heeds_bind (first : p.Wary kind clear fun a k n => (f a).Heeds strict k n) :
    (p >>= f).Heeds strict kind clear := by
  change (p.bind f).Heeds strict kind clear
  induction p generalizing kind clear with
  | done a => exact first
  | fail blame fault => trivial
  | step action next ih =>
    cases action with
    | current => exact ih kind first
    | peek distance => exact ⟨first.1, first.2.1, fun k => ih k (first.2.2 k)⟩
    | shift =>
      refine fun t => ⟨fun _ stage opens => ?_, fun k => ih t (first.2 t k)⟩
      simp [first.1] at opens
    | call rule =>
      refine fun a => ⟨fun _ types => ?_, fun k => ih a (first.2 a k)⟩
      simp [first.1] at types
    | _ => exact fun a => ih a (first a)

theorem Wary.heeds_then (first : p.Wary kind clear fun _ _ _ => True)
    (rest : ∀ a k n, (f a).Heeds strict k n) : (p >>= f).Heeds strict kind clear :=
  (first.imp fun a k n _ => rest a k n).heeds_bind

theorem Wary.heeds (wary : p.Wary kind clear fun _ _ _ => True) : p.Heeds strict kind clear := by
  have whole : (p >>= pure).Heeds strict kind clear := wary.heeds_bind
  rwa [bind_pure] at whole

/-- What looks at no token ahead may take any other. -/
theorem heeds_of_sightless (blind : p.sightless = p) : p.Heeds false kind clear := by
  rw [← blind]
  clear blind
  induction p generalizing kind clear with
  | done a => trivial
  | fail blame fault => trivial
  | step action next ih =>
    cases action with
    | current => exact ih kind
    | peek distance => trivial
    | shift => exact fun t => ⟨nofun, fun k => ih t⟩
    | call rule => exact fun a => ⟨nofun, fun k => ih a⟩
    | _ => exact fun a => ih a

theorem heeds_current {g : Kind → Parse α} (rest : (g kind).Heeds strict kind clear) :
    (current >>= g).Heeds strict kind clear := rest

theorem heeds_shift {g : Token → Parse α}
    (opens : ∀ stage, kind.stage? = some stage → ∀ t, Approaches stage (g t))
    (rest : ∀ t k, (g t).Heeds strict k 0) : (shift >>= g).Heeds strict kind clear :=
  fun t => ⟨fun _ stage found => opens stage found t, rest t⟩

theorem heeds_expect {k : Kind} {g : Token → Parse α}
    (opens : ∀ stage, k.stage? = some stage → ∀ t, Approaches stage (g t))
    (rest : ∀ t k', (g t).Heeds strict k' 0) : (expect k >>= g).Heeds strict kind clear := by
  change ((if decide (kind = k) then shift else fail .here (.expectedToken k.name)) >>= g).Heeds
    strict kind clear
  by_cases found : kind = k
  · rw [decide_eq_true found, if_pos rfl]
    exact heeds_shift (found ▸ opens) rest
  · rw [decide_eq_false found]
    exact trivial

theorem heeds_expectAny {ks : List Kind} {g : Token → Parse α}
    (opens : ∀ stage, kind ∈ ks → kind.stage? = some stage → ∀ t, Approaches stage (g t))
    (rest : ∀ t k', (g t).Heeds strict k' 0) : (expectAny ks >>= g).Heeds strict kind clear := by
  change ((if ks.contains kind then shift
    else fail .here (.expectedToken (" | ".intercalate (ks.map Kind.name)))) >>= g).Heeds
      strict kind clear
  split
  · next found => exact heeds_shift (fun stage => opens stage (by simpa using found)) rest
  · trivial

theorem heeds_accept? {k : Kind} {g : Option Token → Parse α}
    (opens : ∀ stage, k.stage? = some stage → ∀ t, Approaches stage (g (some t)))
    (rest : ∀ t k', (g (some t)).Heeds strict k' 0) (other : (g none).Heeds strict kind clear) :
    (accept? k >>= g).Heeds strict kind clear := by
  change ((if decide (kind = k) then shift >>= fun t => pure (some t) else pure none) >>= g).Heeds
    strict kind clear
  by_cases found : kind = k
  · rw [decide_eq_true found, if_pos rfl]
    exact heeds_shift (g := fun t => g (some t)) (found ▸ opens) rest
  · rw [decide_eq_false found]
    exact other

theorem heeds_accept {k : Kind} {g : Bool → Parse α}
    (opens : ∀ stage, k.stage? = some stage → Approaches stage (g true))
    (rest : ∀ k', (g true).Heeds strict k' 0) (other : (g false).Heeds strict kind clear) :
    (accept k >>= g).Heeds strict kind clear := by
  rw [accept, LawfulMonad.bind_assoc]
  exact heeds_accept? (fun stage found _ => opens stage found) (fun _ => rest) other

/-- Types are followed by what closes them. -/
theorem heeds_typesUntil {close : Kind} {g : List TypeTerm → Parse α} (other : close ≠ .parOpen)
    (rest : ∀ types k, (g types).Heeds strict k 0) :
    (typesUntil close >>= g).Heeds strict kind clear := by
  refine fun types => ⟨fun _ _ => ?_, fun k => ?_⟩
  · change ((if decide (Kind.parOpen = close) then pure types else unexpected) >>= g).Balks
    rw [decide_eq_false other.symm, if_neg Bool.false_ne_true]
    exact trivial
  · change ((if decide (k = close) then pure types else unexpected) >>= g).Heeds strict k 0
    split
    · exact rest types k
    · trivial

end Parse
end ScriptSyntax
