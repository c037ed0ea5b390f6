import ScriptSyntax.Proofs.Progress.Lookahead

/-! Looking ahead to where an expression may end. A rule looks ahead one token at a time, and not
past a `;`; and it goes on alike where it sees a `;` and where it sees a `)`. -/
namespace ScriptSyntax

namespace Parse

variable {α β : Type} {p : Parse α} {f : α → Parse β} {seen : Nat}

/-- How a parse goes on that has seen so many tokens ahead, none of them a `;`. -/
def Peeks : Parse α → Nat → (α → Nat → Prop) → Prop
  | done a, seen, post => post a seen
  | fail .., _, _ => True
  | step (.peek distance) next, seen, post =>
    distance ≤ seen + 1 ∧ next .eol = next .parClose ∧
      ∀ k, (next k).Peeks (if k = .eol then seen else max seen distance) post
  | step .shift next, _, post => ∀ t, (next t).Peeks 0 post
  | step (.call _) next, _, post => ∀ a, (next a).Peeks 0 post
  | step _ next, seen, post => ∀ answer, (next answer).Peeks seen post

theorem Peeks.bind {mid : α → Nat → Prop} {post : β → Nat → Prop} (first : p.Peeks seen mid)
    (rest : ∀ a n, mid a n → (f a).Peeks n post) : (p >>= f).Peeks seen post := by
  change (p.bind f).Peeks seen post
  induction p generalizing seen with
  | done a => exact rest a seen first
  | fail blame fault => trivial
  | step action next ih =>
    cases action with
    | peek distance =>
      obtain ⟨near, same, later⟩ := first
      exact ⟨near, congrArg (Parse.bind · f) same, fun k => ih k (later k)⟩
    | _ => exact fun answer => ih answer (first answer)

theorem peeks_sightless (p : Parse α) : p.sightless.Peeks seen fun _ _ => True := by
  induction p generalizing seen with
  | done a => trivial
  | fail blame fault => trivial
  | step action next ih =>
    cases action with
    | peek distance => trivial
    | _ => exact fun answer => ih answer

theorem Peeks.of_sightless (blind : p.sightless = p) : p.Peeks seen fun _ _ => True :=
  blind ▸ peeks_sightless p

theorem peeks_current {g : Kind → Parse α} {post : α → Nat → Prop}
    (rest : ∀ k, (g k).Peeks seen post) : (current >>= g).Peeks seen post :=
  rest

theorem peeks_inspect {id : NodeId} {g : Profile → Parse α} {post : α → Nat → Prop}
    (rest : ∀ profile, (g profile).Peeks seen post) : (inspect id >>= g).Peeks seen post :=
  rest

theorem peeks_isAt {k : Kind} {g : Bool → Parse α} {post : α → Nat → Prop}
    (either : ∀ b, (g b).Peeks seen post) : (isAt k >>= g).Peeks seen post :=
  fun kind => either (kind = k)

theorem peeks_ahead {distance : Nat} {g : Kind → Parse α} {post : α → Nat → Prop}
    (near : distance ≤ seen + 1) (same : g .eol = g .parClose)
    (rest : ∀ k, (g k).Peeks (if k = .eol then seen else max seen distance) post) :
    (peek distance >>= g).Peeks seen post :=
  ⟨near, same, rest⟩

end Parse

namespace Grammar

open Parse

variable (stops : List Kind)

theorem isAtNamedKey_peeks : isAtNamedKey.Peeks 0 fun _ _ => True := by
  refine peeks_isAt ?_
  rintro (- | -)
  · trivial
  · exact peeks_ahead (Nat.le_refl 1) rfl fun _ => trivial

theorem key_peeks (named : Bool) : (key named).Peeks 0 fun _ _ => True := by
  cases named with
  | false => exact .of_sightless (by simp [key])
  | true => exact isAtNamedKey_peeks.bind fun _ _ _ => .of_sightless (by simp)

theorem entries_peeks (named : Bool) : (entries named).Peeks 0 fun _ _ => True := by
  refine peeks_isAt ?_
  rintro (- | -)
  · exact (key_peeks named).bind fun _ _ _ => .of_sightless (by simp)
  · trivial

theorem map_peeks : map.Peeks 0 fun _ _ => True := by
  have opened : (expect .scopeOpen).Peeks 0 fun _ seen => seen = 0 := by
    refine peeks_isAt ?_
    rintro (- | -)
    · trivial
    · exact fun _ => rfl
  refine opened.bind ?_
  rintro token _ rfl
  exact isAtNamedKey_peeks.bind fun _ _ _ => .of_sightless (by simp)

theorem collection_peeks : collection.Peeks 0 fun _ _ => True := by
  refine peeks_current fun kind => ?_
  split
  case h_5 => exact map_peeks
  all_goals exact .of_sightless (by simp)

/-- The second token ahead is looked at only where the first one is no `;`. -/
theorem isAtTypeList_peeks : isAtTypeList.Peeks 0 fun _ _ => True := by
  refine peeks_ahead (Nat.le_refl 1) rfl fun first => ?_
  split
  · trivial
  split
  · next opens =>
    have more : first ≠ .eol := by
      rintro rfl
      exact absurd opens (by decide)
    rw [if_neg more]
    exact peeks_ahead (by simp) rfl fun _ => trivial
  · trivial

theorem isAtInlineTypes_peeks (left : NodeId) :
    (isAtInlineTypes left).Peeks 0 fun _ _ => True := by
  refine peeks_inspect fun profile => ?_
  split
  · exact isAtTypeList_peeks
  · trivial

theorem weave_peeks (left : NodeId) (assignable : Bool) :
    (weave left stops assignable).Peeks 0 fun _ _ => True := by
  refine peeks_current fun kind => ?_
  split
  · exact .of_sightless (by simp)
  split
  · exact .of_sightless (by simp)
  split
  · refine (isAtInlineTypes_peeks left).bind fun typed _ _ => ?_
    cases typed <;> exact .of_sightless (by simp [binary])
  split
  · exact .of_sightless (by simp)
  split
  · exact .of_sightless (by simp [binary])
  · exact .of_sightless (by simp)

theorem suffix_peeks (operand : NodeId) : (suffix operand).Peeks 0 fun _ _ => True := by
  refine peeks_current fun kind => ?_
  split
  case h_8 =>
    refine peeks_ahead (Nat.le_refl 1) ?_ fun next => ?_
    · rw [if_neg (by decide), if_neg (by decide)]
    · split
      · trivial
      · exact .of_sightless (by simp)
  all_goals exact .of_sightless (by simp)

theorem term_peeks : (term stops).Peeks 0 fun _ _ => True := by
  refine peeks_current fun kind => ?_
  split
  · exact .of_sightless (by simp)
  · split
    case h_9 =>
      split
      · exact .of_sightless (by simp)
      split
      · exact collection_peeks.bind fun _ _ _ => .of_sightless (by simp)
      · trivial
    all_goals exact .of_sightless (by simp)

end Grammar

theorem Rule.body_peeks {y : Yield} (rule : Rule y) : rule.body.Peeks 0 fun _ _ => True := by
  cases rule with
  | weave left stops assignable => exact Grammar.weave_peeks stops left assignable
  | term stops => exact Grammar.term_peeks stops
  | suffix operand => exact Grammar.suffix_peeks operand
  | entries named => exact Grammar.entries_peeks named
  | _ => exact .of_sightless (by simp [body])

end ScriptSyntax
