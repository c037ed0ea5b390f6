import ScriptSyntax.Grammar.Statement

/-! What ends with a token of its own. Such a parse takes that token last and looks at nothing after
it. -/
namespace ScriptSyntax

namespace Parse

variable {α β : Type} {p : Parse α} {f : α → Parse β} {sure : Bool}

/-- How a parse goes on, told whether it has taken a token since it last looked at one or called a
rule. -/
def Closing : Parse α → Bool → (α → Bool → Prop) → Prop
  | done a, sure, post => post a sure
  | fail .., _, _ => True
  | step .current next, _, post => ∀ k, (next k).Closing false post
  | step (.peek _) next, _, post => ∀ k, (next k).Closing false post
  | step .shift next, _, post => ∀ t, (next t).Closing true post
  | step (.call _) next, _, post => ∀ a, (next a).Closing false post
  | step _ next, sure, post => ∀ answer, (next answer).Closing sure post

/-- A parse that takes a token last. -/
abbrev Closes (p : Parse α) : Prop := ∀ sure, p.Closing sure fun _ sure => sure = true

theorem Closing.imp {post post' : α → Bool → Prop} (closing : p.Closing sure post)
    (weaken : ∀ a s, post a s → post' a s) : p.Closing sure post' := by
  induction p generalizing sure with
  | done a => exact weaken a sure closing
  | fail blame fault => trivial
  | step action next ih => cases action <;> exact fun answer => ih answer (closing answer)

@[simp] theorem closing_true (p : Parse α) : p.Closing sure (fun _ _ => True) ↔ True := by
  refine iff_true_intro ?_
  induction p generalizing sure with
  | done a => trivial
  | fail blame fault => trivial
  | step action next ih => cases action <;> exact fun answer => ih answer

@[simp] theorem closing_bind {post : β → Bool → Prop} :
    (p >>= f).Closing sure post ↔ p.Closing sure fun a s => (f a).Closing s post := by
  change (p.bind f).Closing sure post ↔ _
  induction p generalizing sure with
  | done a => exact Iff.rfl
  | fail blame fault => exact Iff.rfl
  | step action next ih => cases action <;> exact forall_congr' fun answer => ih answer

@[simp] theorem closing_pure {a : α} {post : α → Bool → Prop} :
    (pure a : Parse α).Closing sure post ↔ post a sure := Iff.rfl

@[simp] theorem closing_map {g : α → β} {post : β → Bool → Prop} :
    (g <$> p).Closing sure post ↔ p.Closing sure fun a s => post (g a) s := by
  rw [map_eq_pure_bind, closing_bind]
  rfl

theorem Closes.bind {post : β → Bool → Prop} (first : p.Closes)
    (rest : ∀ a, (f a).Closing true post) : (p >>= f).Closing sure post := by
  refine closing_bind.mpr ((first sure).imp ?_)
  rintro a _ rfl
  exact rest a

/-- It does not matter what is done before the last part. -/
theorem closes_bind (rest : ∀ a, (f a).Closes) : (p >>= f).Closes :=
  fun _ => closing_bind.mpr (((closing_true p).mpr trivial).imp fun a s _ => rest a s)

@[simp] theorem closing_ite {c : Prop} [Decidable c] {q : Parse α} {post : α → Bool → Prop} :
    (if c then p else q).Closing sure post ↔
      if c then p.Closing sure post else q.Closing sure post := by
  split <;> rfl

@[simp] theorem closing_fail {blame : Blame} {fault : String → Fault} {post : α → Bool → Prop} :
    (fail blame fault : Parse α).Closing sure post ↔ True := Iff.rfl

@[simp] theorem closing_unexpected {post : α → Bool → Prop} :
    (unexpected : Parse α).Closing sure post ↔ True := Iff.rfl

@[simp] theorem closing_shift {post : Token → Bool → Prop} :
    shift.Closing sure post ↔ ∀ t, post t true := Iff.rfl

@[simp] theorem closing_add {shape : Shape NodeId} {token : Option Token}
    {post : NodeId → Bool → Prop} :
    (add shape token).Closing sure post ↔ ∀ id, post id sure := Iff.rfl

@[simp] theorem closing_freeze {id : NodeId} {post : Unit → Bool → Prop} :
    (freeze id).Closing sure post ↔ post () sure :=
  ⟨fun closing => closing (), fun holds _ => holds⟩

@[simp] theorem closing_isAt {k : Kind} {post : Bool → Bool → Prop} :
    (isAt k).Closing sure post ↔ ∀ kind, post (decide (kind = k)) false := Iff.rfl

@[simp] theorem closing_expect {k : Kind} {post : Token → Bool → Prop} :
    (expect k).Closing sure post ↔ ∀ t, post t true := by
  simp [expect]

@[simp] theorem closing_accept {k : Kind} {post : Bool → Bool → Prop} :
    (accept k).Closing sure post ↔
      ∀ kind, if kind = k then post true true else post false false := by
  simp [accept, accept?]

end Parse

namespace Grammar

open Parse

theorem typeList_closes : typeList.Closes :=
  closes_bind fun _ => closes_bind fun _ => by simp

theorem bracedBlock_closes : bracedBlock.Closes := by
  simp [bracedBlock]

theorem memberBody_closes : memberBody.Closes := by
  simp [memberBody]

theorem classOrStruct_closes : classOrStruct.Closes := by
  refine closes_bind fun isClass => closes_bind fun token => closes_bind fun _ sure => ?_
  exact memberBody_closes.bind (by simp)

theorem interface_closes : interface.Closes := by
  refine closes_bind fun token => closes_bind fun _ => closes_bind fun supers => ?_
  refine closes_bind fun _ => closes_bind fun _ sure => ?_
  exact memberBody_closes.bind (by simp)

theorem enumeration_closes : enumeration.Closes := by
  refine closes_bind fun token => closes_bind fun _ => closes_bind fun _ => ?_
  refine closes_bind fun instances => closes_bind fun _ => closes_bind fun body => ?_
  simp

theorem list_closes (linked : Bool) : (list linked).Closes := by
  simp [list]

theorem set_closes : set.Closes := by
  simp [set]

theorem map_closes : map.Closes :=
  closes_bind fun _ => closes_bind fun _ => closes_bind fun _ => by simp

theorem graph_closes (directed : Bool) : (graph directed).Closes :=
  closes_bind fun _ => closes_bind fun _ => closes_bind fun _ => by simp

theorem collection_closes : collection.Closes := by
  refine closes_bind fun kind => ?_
  split
  · simp
  · exact list_closes false
  · exact list_closes true
  · exact set_closes
  · exact map_closes
  · exact graph_closes false
  · exact graph_closes true
  · simp

theorem access_closes (target : NodeId) : (access target).Closes := by
  simp [access]

theorem property_closes : property.Closes := by
  simp [property, name]

end Grammar
end ScriptSyntax
