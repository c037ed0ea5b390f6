import ScriptSyntax.Proofs.Enclosure.Beside

/-! Parses that give the same up to a `;` and up to a `)`. Only what ends with an expression that is
not there is left at a `;` before the last one. -/
namespace ScriptSyntax

namespace Enclosure

variable {α β : Type} (x : Enclosure) {i rank depth : Nat} {start start' : Point}
  {c c' d : Cursor} {a : α} {b : β} {p p' : Parse α} {f f' : α → Parse β}

/-- The cursor stands past the last `;`, or at one before it. -/
def Lost (c : Cursor) : Prop :=
  ∃ j, c.Walks x.short j ∧ (x.size < j ∨ j < x.size ∧ (x.short j).kind = .eol)

/-- Parses that keep abreast from a place on, or go past the last `;`. -/
def SureAt (depth i : Nat) (p : Parse α) : Prop :=
  ∀ (start start' : Point) (c c' d : Cursor) (a : α), x.Abreast i c c' →
    p.exec (Rule.run depth) start c = some (.ok a, d) →
    x.Keeps (p.exec (Rule.run depth) start' c') a d ∨ ∃ j, x.size < j ∧ d.Walks x.short j

abbrev Sure (depth : Nat) (p : Parse α) : Prop := ∀ i, x.SureAt depth i p

/-- Where `p` succeeds from a place on, `p'` gives the same, unless the first run gets lost. -/
def FirmAt (depth i : Nat) (p p' : Parse α) : Prop :=
  ∀ (start start' : Point) (c c' d : Cursor) (a : α), x.Abreast i c c' →
    p.exec (Rule.run depth) start c = some (.ok a, d) →
    x.Keeps (p'.exec (Rule.run depth) start' c') a d ∨ x.Lost d

abbrev Firm (depth : Nat) (p p' : Parse α) : Prop := ∀ i, x.FirmAt depth i p p'

/-- Parses that find no way back. -/
def Strays (depth : Nat) (p : Parse α) : Prop :=
  ∀ (start : Point) (c d : Cursor) (a : α), x.Lost c →
    p.exec (Rule.run depth) start c = some (.ok a, d) → x.Lost d

variable {x}

/-! Runs that get lost. -/

theorem lost_of_past {j : Nat} (walks : c.Walks x.short j) (past : x.size < j)
    (ran : p.exec (Rule.run depth) start c = some (.ok a, d)) : x.Lost d := by
  obtain ⟨k, final, le⟩ := Parse.advances x.ends walks ran
  exact ⟨k, final, .inl (by omega)⟩

/-- What has to take a token goes past the `;`. -/
theorem lost_of_moves {j : Nat} (walks : c.Walks x.short j) (far : x.size ≤ j)
    (moves : Parse.Moves p rank false .eol)
    (ran : p.exec (Rule.run depth) start c = some (.ok a, d)) : x.Lost d := by
  rcases Nat.lt_or_eq_of_le far with past | rfl
  · exact lost_of_past walks past ran
  · have eol : c.current.kind = .eol := walks.current ▸ x.stop
    obtain ⟨k, moved, final, rfl, -, further⟩ :=
      Parse.Proceeds.advances (eol ▸ moves) x.ends (advances x.ends depth) walks ran
    have := (further rfl).resolve_left Bool.false_ne_true
    exact ⟨k, final, .inl (by omega)⟩

theorem Strays.bind (first : x.Strays depth p) (rest : ∀ a, x.Strays depth (f a)) :
    x.Strays depth (p >>= f) := by
  intro start c d b lost ran
  obtain ⟨a, e, before, after⟩ := Parse.exec_bind_ok.mp ran
  exact rest a start e d b (first start c e a lost before) after

theorem strays_add (shape : Shape NodeId) (token : Option Token) :
    x.Strays depth (Parse.add shape token) := by
  rintro start c d id ⟨j, walks, astray⟩ ran
  cases ran
  exact ⟨j, walks.stay rfl rfl rfl, astray⟩

/-! Parses that keep abreast. -/

theorem firm_pure : x.Firm depth (pure a : Parse α) (pure a) := by
  rintro i start start' c c' d _ abreast ⟨⟩
  exact .inl ⟨i, c', rfl, abreast⟩

theorem firm_fail {blame : Blame} {fault : String → Fault} :
    x.Firm depth (.fail blame fault : Parse α) p' := by
  intro i start start' c c' d a abreast ran
  cases blame <;> cases ran

theorem sure_still {action : Action} (still : action.isStill = true) (other : action ≠ .current) :
    x.Sure depth (Parse.perform action) := by
  intro i start start' c c' d answer abreast ran
  rw [Parse.exec_perform] at ran
  obtain ⟨d', acted', after⟩ := abreast.act_still still (fun same => absurd same other) ran
  exact .inl ⟨i, d', (Parse.exec_perform action).trans acted', after⟩

theorem sure_add (shape : Shape NodeId) (token : Option Token) :
    x.Sure depth (Parse.add shape token) :=
  sure_still rfl nofun

theorem sureAt_shift (inside : i < x.size) : x.SureAt depth i Parse.shift := by
  intro start start' c c' d t abreast ran
  rw [Parse.shift, Parse.exec_perform] at ran
  obtain ⟨d', acted', after⟩ := abreast.act_shift inside ran
  exact .inl ⟨i + 1, d', (Parse.exec_perform .shift).trans acted', after⟩

/-- What takes a token last. -/
theorem sure_of_closes (peeks : p.Peeks 0 fun _ _ => True) (closes : p.Closes) :
    x.Sure depth p := by
  intro i start start' c c' d a abreast ran
  refine .imp_right ?_
    (keeps_or_past (x.looseRules depth) peeks (closes true) abreast (.inl rfl) ran)
  rintro ⟨j, _, final, rfl, -, past⟩
  exact ⟨j, past rfl, final⟩

theorem SureAt.firm (sure : x.SureAt depth i p) : x.FirmAt depth i p p := by
  intro start start' c c' d a abreast ran
  refine (sure start start' c c' d a abreast ran).imp_right ?_
  rintro ⟨j, past, final⟩
  exact ⟨j, final, .inl past⟩

theorem FirmAt.of_moves (rank : Nat) (moves : Parse.Moves p rank false .eol)
    (firm : i < x.size → x.FirmAt depth i p p') : x.FirmAt depth i p p' := by
  rcases Nat.lt_or_ge i x.size with inside | outside
  · exact firm inside
  · exact fun _ _ _ _ _ _ abreast ran => .inr (lost_of_moves abreast.first outside moves ran)

/-- The `;` of the first source and the `)` of the second are looked at instead of each other. -/
theorem firmAt_current {f g : Kind → Parse α}
    (inside : i < x.size → ∀ k, (x.short i).kind = k → x.FirmAt depth i (f k) (g k))
    (outside : x.FirmAt depth i (f .eol) (g .parClose)) :
    x.FirmAt depth i (Parse.current >>= f) (Parse.current >>= g) := by
  intro start start' c c' d a abreast ran
  have ran : (f c.current.kind).exec (Rule.run depth) start c = some (.ok a, d) := ran
  change x.Keeps ((g c'.current.kind).exec (Rule.run depth) start' c') a d ∨ x.Lost d
  rcases Nat.lt_or_ge i x.size with before | behind
  · rw [abreast.current before]
    rw [abreast.first.current] at ran ⊢
    exact inside before _ rfl start start' c c' d a abreast ran
  · obtain rfl : i = x.size := Nat.le_antisymm abreast.within behind
    rw [abreast.first.current, x.stop] at ran
    rw [abreast.second.current, x.close]
    exact outside start start' c c' d a abreast ran

theorem firm_isAtAny {ks : List Kind} {f g : Bool → Parse α} (stop : .eol ∉ ks)
    (close : .parClose ∉ ks) (rest : ∀ b, x.Firm depth (f b) (g b)) :
    x.Firm depth (Parse.isAtAny ks >>= f) (Parse.isAtAny ks >>= g) := by
  intro i
  refine firmAt_current (f := fun k => f (ks.contains k)) (g := fun k => g (ks.contains k))
    (fun _ k _ => rest _ i) ?_
  rw [show ks.contains .eol = false by simpa using stop,
    show ks.contains .parClose = false by simpa using close]
  exact rest false i

/-- The next token is looked at from before the end. -/
theorem firmAt_peek {f f' : Kind → Parse α} (inside : i < x.size)
    (rest : ∀ k, x.FirmAt depth i (f k) (f' k)) (same : f' .parClose = f' .eol) :
    x.FirmAt depth i (Parse.peek 1 >>= f) (Parse.peek 1 >>= f') := by
  intro start start' c c' d a abreast ran
  obtain ⟨k, e, before, after⟩ := Parse.exec_bind_ok.mp ran
  rw [Parse.peek, Parse.exec_perform] at before
  have within := Cursor.Walks.limit_of_act_peek before
  -- At the end the second run goes on as if it had seen the `;`.
  obtain ⟨k', e', acted, between, like⟩ : ∃ k' e',
      Parse.act (Rule.run depth) (.peek 1) c' = some (.ok k', e') ∧ x.Abreast i e e' ∧
        f' k' = f' k := by
    rcases Nat.lt_or_ge (i + 1) x.size with near | far
    · obtain ⟨e', acted', between⟩ := abreast.act_peek near before
      exact ⟨k, e', acted', between, rfl⟩
    · obtain ⟨_, again, first, arena⟩ := abreast.first.act_peek depth within
      obtain ⟨e', acted', second, arena'⟩ := abreast.second.act_peek depth within
      cases before.symm.trans again
      obtain place : i + 1 = x.size := Nat.le_antisymm inside far
      refine ⟨_, e', acted',
        ⟨first, second, abreast.within, by rw [arena, arena', abreast.arena]⟩, ?_⟩
      rw [place, x.stop, x.close, same]
  refine (rest k start start' e e' d a between after).imp_left ?_
  rintro ⟨j, d', after', final⟩
  exact ⟨j, d', Parse.exec_bind_ok.mpr ⟨k', e', (Parse.exec_perform _).trans acted,
    like ▸ after'⟩, final⟩

/-! Sequences. -/

theorem keeps_bind {e : Cursor}
    (first : x.Keeps (p'.exec (Rule.run depth) start' c') a d)
    (rest : ∀ j d', x.Abreast j d d' →
      x.Keeps ((f' a).exec (Rule.run depth) start' d') b e ∨ x.Lost e) :
    x.Keeps ((p' >>= f').exec (Rule.run depth) start' c') b e ∨ x.Lost e := by
  obtain ⟨j, d', before, between⟩ := first
  refine (rest j d' between).imp_left ?_
  rintro ⟨k, e', after, final⟩
  exact ⟨k, e', Parse.exec_bind_ok.mpr ⟨a, d', before, after⟩, final⟩

theorem FirmAt.bind (first : x.FirmAt depth i p p') (strays : ∀ a, x.Strays depth (f a))
    (rest : ∀ a, x.Firm depth (f a) (f' a)) : x.FirmAt depth i (p >>= f) (p' >>= f') := by
  intro start start' c c' d b abreast ran
  obtain ⟨a, e, before, after⟩ := Parse.exec_bind_ok.mp ran
  rcases first start start' c c' e a abreast before with keeps | lost
  · exact keeps_bind keeps fun j e' between => rest a j start start' e e' d b between after
  · exact .inr (strays a start e d b lost after)

theorem SureAt.bind (first : x.SureAt depth i p) (rest : ∀ a, x.Firm depth (f a) (f' a)) :
    x.FirmAt depth i (p >>= f) (p >>= f') := by
  intro start start' c c' d b abreast ran
  obtain ⟨a, e, before, after⟩ := Parse.exec_bind_ok.mp ran
  rcases first start start' c c' e a abreast before with keeps | ⟨j, past, walks⟩
  · exact keeps_bind keeps fun j e' between => rest a j start start' e e' d b between after
  · exact .inr (lost_of_past walks past after)

/-- A loose parse is firm before what has to take a token. -/
theorem Loose.bind (rank : Nat) (first : x.Loose depth p)
    (moves : ∀ a, Parse.Moves (f a) rank false .eol) (rest : ∀ a, x.Firm depth (f a) (f' a)) :
    x.Firm depth (p >>= f) (p >>= f') := by
  intro i start start' c c' d b abreast ran
  obtain ⟨a, e, before, after⟩ := Parse.exec_bind_ok.mp ran
  rcases first i start start' c c' e a abreast before with keeps | ⟨j, far, walks⟩
  · exact keeps_bind keeps fun j e' between => rest a j start start' e e' d b between after
  · exact .inr (lost_of_moves walks far (moves a) after)

end Enclosure
end ScriptSyntax
