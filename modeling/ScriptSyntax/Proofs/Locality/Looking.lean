import ScriptSyntax.Proofs.Progress.Lookahead

/-! How far a parse has looked. A token that was looked at is taken before a statement ends, so a
statement ends with nothing looked at behind the token after it. All that is ever left open on the
way is the token behind a `&`, which tells whether that is an operator between two operands. -/
namespace ScriptSyntax

/-- Nothing was looked at behind the current token, or just the token behind a `&`. -/
def Calm (seen : Nat) (kind : Kind) : Prop := seen = 0 ∨ seen = 1 ∧ kind = .bAnd

/-- How a rule may leave the tokens that it is given with `seen` of them looked at behind the
current one, of kind `kind`. A rule that takes no token leaves them as they were. -/
def Rule.Rests (seen : Nat) (kind : Kind) : {y : Yield} → Rule y → Nat → Kind → Prop
  | _, statement, seen', _ | _, branches _, seen', _ => seen' = 0
  | _, catches, seen', kind' => seen' = 0 ∨ seen' = seen ∧ kind' = kind
  | _, term _, seen', kind' => Calm seen' kind'
  | _, _, seen', kind' => Calm seen' kind' ∨ seen' = seen ∧ kind' = kind

theorem Calm.few {n : Nat} {k : Kind} (calm : Calm n k) : n ≤ 1 := by
  rcases calm with rfl | ⟨rfl, -⟩ <;> decide

namespace Parse

variable {α β : Type} {p : Parse α} {f : α → Parse β} {seen n : Nat} {kind k : Kind}

/-- How a parse goes on where `seen` tokens behind the current one have been looked at, so that each
of its results is as described. Rules are called with at most one. -/
def Looks : Parse α → Nat → Kind → (α → Nat → Kind → Prop) → Prop
  | done a, seen, kind, post => post a seen kind
  | fail .., _, _, _ => True
  | step .current next, seen, kind, post => (next kind).Looks seen kind post
  | step (.peek distance) next, seen, kind, post =>
    ∀ k, (next k).Looks (max seen distance) kind post
  | step .shift next, seen, _, post => ∀ t k, (next t).Looks (seen - 1) k post
  | step (.call rule) next, seen, kind, post =>
    seen ≤ 1 ∧ ∀ a n k, rule.Rests seen kind n k → (next a).Looks n k post
  | step _ next, seen, kind, post => ∀ answer, (next answer).Looks seen kind post

theorem Looks.imp {post post' : α → Nat → Kind → Prop} (looks : p.Looks seen kind post)
    (weaken : ∀ a n k, post a n k → post' a n k) : p.Looks seen kind post' := by
  induction p generalizing seen kind with
  | done a => exact weaken a seen kind looks
  | fail blame fault => trivial
  | step action next ih =>
    cases action with
    | current => exact ih kind looks
    | shift => exact fun t k => ih t (looks t k)
    | call rule => exact ⟨looks.1, fun a n k rests => ih a (looks.2 a n k rests)⟩
    | _ => exact fun answer => ih answer (looks answer)

@[simp] theorem looks_bind {post : β → Nat → Kind → Prop} :
    (p >>= f).Looks seen kind post ↔
      p.Looks seen kind fun a n k => (f a).Looks n k post := by
  change (p.bind f).Looks seen kind post ↔ _
  induction p generalizing seen kind with
  | done a => exact Iff.rfl
  | fail blame fault => exact Iff.rfl
  | step action next ih =>
    cases action with
    | current => exact ih kind
    | shift => exact forall₂_congr fun t k => ih t
    | call rule =>
      exact and_congr_right fun _ => forall₃_congr fun a n k => imp_congr_right fun _ => ih a
    | _ => exact forall_congr' fun answer => ih answer

@[simp] theorem looks_current {post : Kind → Nat → Kind → Prop} :
    current.Looks seen kind post ↔ post kind seen kind := Iff.rfl

@[simp] theorem looks_isAt {post : Bool → Nat → Kind → Prop} :
    (isAt k).Looks seen kind post ↔ post (decide (kind = k)) seen kind := Iff.rfl

@[simp] theorem looks_isAtAny {ks : List Kind} {post : Bool → Nat → Kind → Prop} :
    (isAtAny ks).Looks seen kind post ↔ post (ks.contains kind) seen kind := Iff.rfl

@[simp] theorem looks_peek {distance : Nat} {post : Kind → Nat → Kind → Prop} :
    (peek distance).Looks seen kind post ↔ ∀ k, post k (max seen distance) kind := Iff.rfl

@[simp] theorem looks_shift {post : Token → Nat → Kind → Prop} :
    shift.Looks seen kind post ↔ ∀ t k, post t (seen - 1) k := Iff.rfl

@[simp] theorem looks_inspect {id : NodeId} {post : Profile → Nat → Kind → Prop} :
    (inspect id).Looks seen kind post ↔ ∀ profile, post profile seen kind := Iff.rfl

@[simp] theorem looks_announce {post : Unit → Nat → Kind → Prop} :
    announce.Looks seen kind post ↔ post () seen kind :=
  ⟨fun looks => looks (), fun holds _ => holds⟩

theorem Looks.bind {mid : α → Nat → Kind → Prop} {post : β → Nat → Kind → Prop}
    (first : p.Looks seen kind mid) (rest : ∀ a n k, mid a n k → (f a).Looks n k post) :
    (p >>= f).Looks seen kind post :=
  looks_bind.mpr (first.imp rest)

theorem Looks.call {y : Yield} {rule : Rule y} {f : y.Value → Parse β}
    {post : β → Nat → Kind → Prop} (few : seen ≤ 1)
    (rest : ∀ a n k, rule.Rests seen kind n k → (f a).Looks n k post) :
    (Parse.call rule >>= f).Looks seen kind post :=
  looks_bind.mpr ⟨few, rest⟩

/-! Where at most one token was looked at, none is behind the next one. -/

theorem Looks.shift {f : Token → Parse β} {post : β → Nat → Kind → Prop} (few : seen ≤ 1)
    (rest : ∀ t k, (f t).Looks 0 k post) : (Parse.shift >>= f).Looks seen kind post := by
  rw [looks_bind, looks_shift, Nat.sub_eq_zero_of_le few]
  exact rest

theorem Looks.expect {f : Token → Parse β} {post : β → Nat → Kind → Prop} (few : seen ≤ 1)
    (rest : ∀ t k, (f t).Looks 0 k post) : (Parse.expect k >>= f).Looks seen kind post := by
  rw [Parse.expect, LawfulMonad.bind_assoc, looks_bind, looks_isAt]
  split
  · exact .shift few rest
  · trivial

theorem Looks.expectAny {ks : List Kind} {f : Token → Parse β} {post : β → Nat → Kind → Prop}
    (few : seen ≤ 1) (rest : ∀ t k, (f t).Looks 0 k post) :
    (Parse.expectAny ks >>= f).Looks seen kind post := by
  rw [Parse.expectAny, LawfulMonad.bind_assoc, looks_bind, looks_isAtAny]
  split
  · exact .shift few rest
  · trivial

theorem Looks.accept? {f : Option Token → Parse β} {post : β → Nat → Kind → Prop}
    (few : seen ≤ 1) (taken : ∀ t k, (f (some t)).Looks 0 k post)
    (other : (f none).Looks seen kind post) : (Parse.accept? k >>= f).Looks seen kind post := by
  rw [Parse.accept?, LawfulMonad.bind_assoc, looks_bind, looks_isAt]
  split
  · rw [LawfulMonad.bind_assoc]
    exact .shift few taken
  · exact other

theorem Looks.accept {f : Bool → Parse β} {post : β → Nat → Kind → Prop} (few : seen ≤ 1)
    (taken : ∀ k, (f true).Looks 0 k post) (other : (f false).Looks seen kind post) :
    (Parse.accept k >>= f).Looks seen kind post := by
  rw [Parse.accept, LawfulMonad.bind_assoc]
  exact .accept? few (fun _ => taken) other

end Parse

namespace Rule

variable {seen n : Nat} {kind k : Kind} {y : Yield} {rule : Rule y}

theorem Rests.calm (rests : rule.Rests seen kind n k) : Calm n k ∨ n = seen ∧ k = kind := by
  cases rule <;> first
    | exact rests
    | exact rests.imp_left .inl
    | exact .inl (.inl rests)
    | exact .inl rests

theorem Rests.few (few : seen ≤ 1) (rests : rule.Rests seen kind n k) : n ≤ 1 :=
  rests.calm.elim Calm.few fun same => same.1 ▸ few

end Rule

namespace Parse

/-! Parses that look nowhere ahead. -/

variable {α : Type} {p : Parse α} {seen n : Nat} {kind k : Kind}

/-- Without a look ahead a parse goes on as rules do. -/
theorem looks_sightless (few : seen ≤ 1) (p : Parse α)
    (start : Calm n k ∨ n = seen ∧ k = kind) :
    p.sightless.Looks n k fun _ n k => Calm n k ∨ n = seen ∧ k = kind := by
  induction p generalizing n k with
  | done a => exact start
  | fail blame fault => trivial
  | step action next ih =>
    have small : n ≤ 1 := start.elim Calm.few fun same => same.1 ▸ few
    cases action with
    | peek distance => trivial
    | current => exact ih k start
    | shift => exact fun t k => ih t (.inl (.inl (Nat.sub_eq_zero_of_le small)))
    | call rule =>
      refine ⟨small, fun a n' k' rests => ih a ?_⟩
      rcases rests.calm with calm | ⟨rfl, rfl⟩
      · exact .inl calm
      · exact start
    | _ => exact fun answer => ih answer start

theorem Looks.of_sightless (few : seen ≤ 1) (blind : p.sightless = p) :
    p.Looks seen kind fun _ n k => Calm n k ∨ n = seen ∧ k = kind :=
  blind ▸ looks_sightless few p (.inr ⟨rfl, rfl⟩)

theorem Looks.of_calm (calm : Calm n k) (blind : p.sightless = p) :
    p.Looks n k fun _ n k => Calm n k := by
  refine (Looks.of_sightless calm.few blind).imp ?_
  rintro a n' k' (calm' | ⟨rfl, rfl⟩)
  · exact calm'
  · exact calm

end Parse

namespace Grammar

open Parse

variable (stops : List Kind) {seen : Nat} {kind : Kind}

/-! Directives and statements end with nothing left open. -/

theorem block_looks (few : seen ≤ 1) : (block stops).Looks seen kind fun _ n _ => n ≤ 1 :=
  (Looks.of_sightless few (by simp)).imp fun _ _ _ rests =>
    rests.elim Calm.few fun same => same.1 ▸ few

theorem bracedBlock_looks (few : seen ≤ 1) : bracedBlock.Looks seen kind fun _ n _ => n = 0 := by
  refine .accept few (fun _ _ => rfl) ?_
  refine .expect few fun _ _ => ?_
  refine (block_looks _ (Nat.zero_le 1)).bind fun _ _ _ few => ?_
  exact .expect few fun _ _ => rfl

theorem body_looks (few : seen ≤ 1) : body.Looks seen kind fun _ n _ => n = 0 := by
  rw [body, isAtBrace, looks_bind, looks_isAtAny]
  split
  · exact bracedBlock_looks few
  · exact .call few fun _ _ _ settled _ => settled

theorem condition_looks (few : seen ≤ 1) : condition.Looks seen kind fun _ n _ => n = 0 := by
  refine .expect few fun _ _ => ?_
  refine .call (Nat.zero_le 1) fun _ _ _ rests => ?_
  exact .expect (rests.few (Nat.zero_le 1)) fun _ _ => rfl

theorem otherwise?_looks : otherwise?.Looks 0 kind fun _ n _ => n = 0 := by
  refine .accept (Nat.zero_le 1) (fun _ => ?_) rfl
  refine .expect (Nat.zero_le 1) fun _ _ => ?_
  exact (body_looks (Nat.zero_le 1)).bind fun _ _ _ settled => settled

theorem branches_looks (keyword : Token) (few : seen ≤ 1) :
    (branches keyword).Looks seen kind fun _ n _ => n = 0 := by
  refine (condition_looks few).bind ?_
  rintro condition _ k rfl
  refine .expect (Nat.zero_le 1) fun _ k => ?_
  refine (body_looks (Nat.zero_le 1)).bind ?_
  rintro body _ k rfl branch
  refine .accept (Nat.zero_le 1) (fun k => ?_) rfl
  refine .accept? (Nat.zero_le 1) (fun keyword k => ?_) ?_
  · exact .call (Nat.zero_le 1) fun _ _ _ settled => settled
  · refine .expect (Nat.zero_le 1) fun _ k => ?_
    exact (body_looks (Nat.zero_le 1)).bind fun _ _ _ settled => settled

theorem conditional_looks (few : seen ≤ 1) : conditional.Looks seen kind fun _ n _ => n = 0 := by
  refine .expect few fun token k => ?_
  exact .call (Nat.zero_le 1) fun _ _ _ settled _ => settled

theorem loop_looks (few : seen ≤ 1) : loop.Looks seen kind fun _ n _ => n = 0 := by
  refine .expect few fun token k => ?_
  refine .expect (Nat.zero_le 1) fun _ k => ?_
  refine .call (Nat.zero_le 1) fun sections n k rests => ?_
  split
  · trivial
  · refine .expect (rests.few (Nat.zero_le 1)) fun _ k => ?_
    refine .expect (Nat.zero_le 1) fun _ k => ?_
    refine (body_looks (Nat.zero_le 1)).bind ?_
    rintro body _ k rfl
    exact otherwise?_looks.bind fun _ _ _ settled _ => settled

theorem switch_looks (few : seen ≤ 1) : switch.Looks seen kind fun _ n _ => n = 0 := by
  refine .expect few fun token k => ?_
  refine (condition_looks (Nat.zero_le 1)).bind ?_
  rintro subject _ k rfl
  refine .expect (Nat.zero_le 1) fun _ k => ?_
  refine .expect (Nat.zero_le 1) fun _ k => ?_
  refine .call (Nat.zero_le 1) fun cases n k rests => ?_
  refine .expect (rests.few (Nat.zero_le 1)) fun _ k => ?_
  exact otherwise?_looks.bind fun _ _ _ settled _ => settled

theorem catches_looks (few : seen ≤ 1) :
    catches.Looks seen kind fun _ n k => n = 0 ∨ n = seen ∧ k = kind := by
  refine .accept? few (fun token k => ?_) (.inr ⟨rfl, rfl⟩)
  have declared : (declaration true).Looks 0 k fun _ n k => Calm n k :=
    .of_calm (.inl rfl) (by simp)
  refine declared.bind fun declaration n k calm => ?_
  refine (bracedBlock_looks calm.few).bind ?_
  rintro body _ k rfl branch
  refine .call (Nat.zero_le 1) fun others n k rests => ?_
  exact .inl (rests.elim id And.left)

theorem guarded_looks (few : seen ≤ 1) : guarded.Looks seen kind fun _ n _ => n = 0 := by
  refine .expect few fun token k => ?_
  refine (bracedBlock_looks (Nat.zero_le 1)).bind ?_
  rintro body _ k rfl
  refine .call (Nat.zero_le 1) fun catches n k rests => ?_
  obtain rfl : n = 0 := rests.elim id And.left
  exact otherwise?_looks.bind fun _ _ _ settled _ => settled

theorem directive_looks (few : seen ≤ 1) : directive.Looks seen kind fun _ n _ => n = 0 := by
  rw [directive, looks_bind, looks_current]
  split
  · exact conditional_looks few
  · exact loop_looks few
  · exact switch_looks few
  · exact guarded_looks few
  · trivial

theorem statement_looks (few : seen ≤ 1) : statement.Looks seen kind fun _ n _ => n = 0 := by
  rw [statement, looks_bind, looks_announce, looks_bind, looks_current]
  split
  · exact directive_looks few
  · refine (Looks.of_sightless few sightless_plainStatement).bind fun _ n k rests => ?_
    exact .expect (rests.elim Calm.few fun same => same.1 ▸ few) fun _ _ => rfl

/-! Where rules look ahead. -/

theorem isAtNamedKey_looks (few : seen ≤ 1) : isAtNamedKey.Looks seen kind fun _ n k =>
    n ≤ 1 ∧ k = kind := by
  rw [isAtNamedKey, looks_bind, looks_isAt]
  split
  · exact fun _ => ⟨Nat.max_le.mpr ⟨few, Nat.le_refl 1⟩, rfl⟩
  · exact ⟨few, rfl⟩

theorem key_looks (named : Bool) (few : seen ≤ 1) :
    (key named).Looks seen kind fun _ n _ => n ≤ 1 := by
  rw [key]
  split
  · refine (isAtNamedKey_looks few).bind fun found n k few => ?_
    split
    · exact .shift few.1 fun _ _ _ => Nat.zero_le 1
    · trivial
  · exact ⟨few, fun _ _ _ rests => rests.few few⟩

theorem entries_looks (named : Bool) (few : seen ≤ 1) :
    (entries named).Looks seen kind fun _ n k => Calm n k ∨ n = seen ∧ k = kind := by
  rw [entries, looks_bind, looks_isAt]
  split
  · exact .inr ⟨rfl, rfl⟩
  · refine (key_looks named few).bind fun key n k few => ?_
    refine .expect few fun _ k => ?_
    exact (Looks.of_calm (.inl rfl) (by simp)).imp fun _ _ _ calm => .inl calm

theorem map_looks (few : seen ≤ 1) : map.Looks seen kind fun _ n _ => n = 0 := by
  refine .expect few fun token k => ?_
  refine (isAtNamedKey_looks (Nat.zero_le 1)).bind fun named n k few => ?_
  refine .call few.1 fun entries n k rests => ?_
  exact .expect (rests.few few.1) fun _ _ _ => rfl

/-- What begins with a token that is taken is calm if it looks nowhere ahead. -/
theorem collection_looks (few : seen ≤ 1) :
    collection.Looks seen kind fun _ n k => Calm n k := by
  rw [collection, looks_bind, looks_current]
  split
  case h_5 => exact (map_looks few).imp fun _ _ _ settled => .inl settled
  case h_8 => trivial
  all_goals exact .shift few fun _ _ => .of_calm (.inl rfl) (by simp)

/-- The types that may follow a name are looked for up to two tokens ahead. -/
theorem isAtInlineTypes_looks (left : NodeId) (few : seen ≤ 1) :
    (isAtInlineTypes left).Looks seen kind fun _ n _ => n ≤ 2 := by
  rw [isAtInlineTypes, looks_bind, looks_inspect]
  intro profile
  split
  · rw [isAtTypeList, looks_bind, looks_peek]
    intro first
    split
    · exact show max seen 1 ≤ 2 by omega
    split
    · exact fun _ => show max (max seen 1) 2 ≤ 2 by omega
    · exact show max seen 1 ≤ 2 by omega
  · exact Nat.le_succ_of_le few

theorem typeList_looks (few : seen ≤ 2) : typeList.Looks seen kind fun _ n _ => n = 0 := by
  rw [typeList, looks_bind, expect, looks_bind, looks_isAt]
  split
  · intro token k
    have few : seen - 1 ≤ 1 := Nat.sub_le_of_le_add few
    have types : (typesUntil .greaterThan).Looks (seen - 1) k fun _ n _ => n ≤ 1 :=
      (Looks.of_sightless few (by simp)).imp fun _ _ _ rests =>
        rests.elim Calm.few fun same => same.1 ▸ few
    exact types.bind fun _ _ _ few => .expect few fun _ _ => rfl
  · trivial

theorem binary_looks (left : NodeId) (assignable : Bool) (few : seen ≤ 2) :
    (binary left stops assignable).Looks seen kind fun _ n k => Calm n k := by
  rw [binary, looks_bind, looks_shift]
  intro token k
  refine .call (Nat.sub_le_of_le_add few) fun right n k (calm : Calm n k) chain => ?_
  refine ⟨calm.few, fun _ n' k' rests => ?_⟩
  rcases rests with calm' | ⟨rfl, rfl⟩
  · exact calm'
  · exact calm

theorem weave_looks (left : NodeId) (assignable : Bool) (few : seen ≤ 1) :
    (weave left stops assignable).Looks seen kind fun _ n k =>
      Calm n k ∨ n = seen ∧ k = kind := by
  rw [weave, looks_bind, looks_current]
  split
  · exact .of_sightless few (by simp)
  split
  · exact .of_sightless few (by simp)
  split
  · refine (isAtInlineTypes_looks left few).bind fun typed n k few => ?_
    split
    · refine (typeList_looks few).bind ?_
      rintro types _ k rfl
      exact (Looks.of_calm (.inl rfl) (by simp)).imp fun _ _ _ calm => .inl calm
    · exact (binary_looks stops left assignable few).imp fun _ _ _ calm => .inl calm
  split
  · exact .of_sightless few (by simp)
  split
  · exact (binary_looks stops left assignable (Nat.le_succ_of_le few)).imp
      fun _ _ _ calm => .inl calm
  · exact .of_sightless few (by simp)

theorem suffix_looks (operand : NodeId) (few : seen ≤ 1) :
    (suffix operand).Looks seen kind fun _ n k => Calm n k ∨ n = seen ∧ k = kind := by
  rw [suffix, looks_bind, looks_current]
  split
  case h_8 =>
    rw [looks_bind, looks_peek]
    intro next
    have one : max seen 1 = 1 := Nat.max_eq_right few
    rw [one]
    split
    · exact .inl (.inr ⟨rfl, rfl⟩)
    · refine .shift (Nat.le_refl 1) fun _ _ => ?_
      exact (Looks.of_calm (.inl rfl) (by simp)).imp fun _ _ _ calm => .inl calm
  all_goals exact .of_sightless few (by simp)

theorem construct_looks (few : seen ≤ 1) :
    (construct stops).Looks seen kind fun _ n k => Calm n k := by
  rw [construct, looks_bind, looks_current]
  split
  · exact .expect few fun _ _ => .of_calm (.inl rfl) (by simp)
  · exact .expectAny few fun _ _ => .of_calm (.inl rfl) (by simp)
  · exact .expectAny few fun _ _ => .of_calm (.inl rfl) (by simp)
  · exact .expect few fun _ _ => .of_calm (.inl rfl) (by simp)
  · exact .expect few fun _ _ => .of_calm (.inl rfl) (by simp)
  · trivial

theorem term_looks (few : seen ≤ 1) : (term stops).Looks seen kind fun _ n k => Calm n k := by
  rw [term, looks_bind, looks_current]
  split
  · exact .shift few fun _ _ => .of_calm (.inl rfl) (by simp)
  · split
    case h_9 =>
      split
      · exact construct_looks stops few
      split
      · refine (collection_looks few).bind fun value n k calm => ?_
        exact .of_calm calm (by simp)
      · trivial
    all_goals exact .shift few fun _ _ => .of_calm (.inl rfl) (by simp)

end Grammar

theorem Rule.body_looks {y : Yield} (rule : Rule y) {seen : Nat} (few : seen ≤ 1) (kind : Kind) :
    rule.body.Looks seen kind fun _ n k => rule.Rests seen kind n k := by
  cases rule with
  | statement => exact Grammar.statement_looks few
  | branches keyword => exact Grammar.branches_looks keyword few
  | catches => exact Grammar.catches_looks few
  | weave left stops assignable => exact Grammar.weave_looks stops left assignable few
  | term stops => exact Grammar.term_looks stops few
  | suffix operand => exact Grammar.suffix_looks operand few
  | entries named => exact Grammar.entries_looks named few
  | _ => exact .of_sightless few (by simp [body])

end ScriptSyntax
