import ScriptSyntax.Proofs.Layout.Arena

/-! A parse on top of other nodes. Places are taken out and ids moved up, on the way in, in what the
parse is told, and on the way out, in what it puts into nodes, asks of them and passes on to rules.
A parse for which both come to the same takes no notice of where things are. -/
namespace ScriptSyntax

@[simp] def Yield.lifted (o : Nat) : (y : Yield) → y.Value → y.Value
  | node => (o + ·)
  | nodes => List.map (o + ·)
  | pairs => List.map fun p => (o + p.1, o + p.2)
  | sections => List.map (List.map (o + ·))
  | branches => Prod.map (List.map (o + ·)) (Option.map (o + ·))
  | tokens => List.map Token.unplaced
  | type => TypeTerm.unplaced
  | types => TypeTerm.unplacedAll

@[simp] def Rule.lifted (o : Nat) : {y : Yield} → Rule y → Rule y
  | _, weave left stops assignable => weave (o + left) stops assignable
  | _, suffix operand => suffix (o + operand)
  | _, branches keyword => branches keyword.unplaced
  | _, rule => rule

namespace Parse

variable {α β : Type} (o : Nat)

/-- The parse with what it does lifted. -/
def lifted : Parse α → Parse α
  | done a => done a
  | fail blame fault => fail blame fault
  | step (.add shape token) next =>
    step (.add (shape.lifted o) (token.map Token.unplaced)) fun id => (next id).lifted
  | step (.inspect id) next => step (.inspect (o + id)) fun profile => (next profile).lifted
  | step (.settle id) next => step (.settle (o + id)) fun top => (next top).lifted
  | step (.freeze id) next => step (.freeze (o + id)) fun done => (next done).lifted
  | step (.call rule) next => step (.call (rule.lifted o)) fun a => (next a).lifted
  | step action next => step action fun answer => (next answer).lifted

/-- The parse with what it is told lifted. -/
def told : Parse α → Parse α
  | done a => done a
  | fail blame fault => fail blame fault
  | step .shift next => step .shift fun t => (next t.unplaced).told
  | step (.add shape token) next => step (.add shape token) fun id => (next (o + id)).told
  | step (.settle id) next => step (.settle id) fun top => (next (o + top)).told
  | step (.call rule) next => step (.call rule) fun a => (next (Yield.lifted o _ a)).told
  | step action next => step action fun answer => (next answer).told

variable (p : Parse α) (f : α → Parse β)

@[simp] theorem lifted_bind :
    (p >>= f).lifted o = p.lifted o >>= fun a => (f a).lifted o := by
  change (p.bind f).lifted o = (p.lifted o).bind fun a => (f a).lifted o
  induction p with
  | done a => rfl
  | fail blame fault => rfl
  | step action next ih => cases action <;> simp only [bind, lifted, ih]

@[simp] theorem told_bind : (p >>= f).told o = p.told o >>= fun a => (f a).told o := by
  change (p.bind f).told o = (p.told o).bind fun a => (f a).told o
  induction p with
  | done a => rfl
  | fail blame fault => rfl
  | step action next ih => cases action <;> simp only [bind, told, ih]

@[simp] theorem map_ite {c : Prop} [Decidable c] (g : α → β) (q : Parse α) :
    g <$> (if c then p else q) = if c then g <$> p else g <$> q :=
  apply_ite (g <$> ·) c p q

@[simp] theorem map_fail (g : α → β) (blame : Blame) (fault : String → Fault) :
    g <$> (fail blame fault : Parse α) = fail blame fault := rfl

@[simp] theorem map_unexpected (g : α → β) :
    g <$> (unexpected : Parse α) = unexpected := rfl

@[simp] theorem lifted_pure (a : α) : (pure a : Parse α).lifted o = pure a := rfl

@[simp] theorem told_pure (a : α) : (pure a : Parse α).told o = pure a := rfl

@[simp] theorem lifted_map (g : α → β) : (g <$> p).lifted o = g <$> p.lifted o := by
  simp only [map_eq_pure_bind, lifted_bind, lifted_pure]

@[simp] theorem told_map (g : α → β) : (g <$> p).told o = g <$> p.told o := by
  simp only [map_eq_pure_bind, told_bind, told_pure]

@[simp] theorem lifted_ite {c : Prop} [Decidable c] (q : Parse α) :
    (if c then p else q).lifted o = if c then p.lifted o else q.lifted o :=
  apply_ite (lifted o) c p q

@[simp] theorem told_ite {c : Prop} [Decidable c] (q : Parse α) :
    (if c then p else q).told o = if c then p.told o else q.told o :=
  apply_ite (told o) c p q

/-- Two steps that take no notice of where things are. The first yields what bears a place or an
id, and the second is told of it lifted. -/
theorem told_bind_of_map {γ : Type} {g : α → α} {h : β → γ} {p q : Parse α} {f : α → Parse γ}
    {f' : α → Parse β} (first : p.told o = g <$> q.lifted o)
    (rest : ∀ a, (f (g a)).told o = h <$> (f' a).lifted o) :
    (p >>= f).told o = h <$> (q >>= f').lifted o := by
  simp only [told_bind, lifted_bind, first, bind_map_left, rest, map_bind]

theorem told_bind_of_eq {γ : Type} {h : β → γ} {p q : Parse α} {f : α → Parse γ}
    {f' : α → Parse β} (first : p.told o = q.lifted o)
    (rest : ∀ a, (f a).told o = h <$> (f' a).lifted o) :
    (p >>= f).told o = h <$> (q >>= f').lifted o := by
  simp only [told_bind, lifted_bind, first, rest, map_bind]

/-! The actions. -/

@[simp] theorem lifted_fail (blame : Blame) (fault : String → Fault) :
    (fail blame fault : Parse α).lifted o = fail blame fault := rfl

@[simp] theorem told_fail (blame : Blame) (fault : String → Fault) :
    (fail blame fault : Parse α).told o = fail blame fault := rfl

@[simp] theorem lifted_current : current.lifted o = current := rfl

@[simp] theorem told_current : current.told o = current := rfl

@[simp] theorem lifted_peek (depth : Nat) : (peek depth).lifted o = peek depth := rfl

@[simp] theorem told_peek (depth : Nat) : (peek depth).told o = peek depth := rfl

@[simp] theorem lifted_shift : shift.lifted o = shift := rfl

@[simp] theorem told_shift : shift.told o = Token.unplaced <$> shift := rfl

@[simp] theorem lifted_add (shape : Shape NodeId) (token : Option Token) :
    (add shape token).lifted o = add (shape.lifted o) (token.map Token.unplaced) := rfl

@[simp] theorem told_add (shape : Shape NodeId) (token : Option Token) :
    (add shape token).told o = (o + ·) <$> add shape token := rfl

@[simp] theorem lifted_inspect (id : NodeId) :
    (inspect id).lifted o = inspect (o + id) := rfl

@[simp] theorem told_inspect (id : NodeId) : (inspect id).told o = inspect id := rfl

@[simp] theorem lifted_settle (id : NodeId) : (settle id).lifted o = settle (o + id) := rfl

@[simp] theorem told_settle (id : NodeId) : (settle id).told o = (o + ·) <$> settle id := rfl

@[simp] theorem lifted_freeze (id : NodeId) : (freeze id).lifted o = freeze (o + id) := rfl

@[simp] theorem told_freeze (id : NodeId) : (freeze id).told o = freeze id := rfl

@[simp] theorem lifted_announce : announce.lifted o = announce := rfl

@[simp] theorem told_announce : announce.told o = announce := rfl

@[simp] theorem lifted_call {y : Yield} (rule : Rule y) :
    @lifted (no_index y.Value) o (call rule) = call (rule.lifted o) := rfl

@[simp] theorem told_call {y : Yield} (rule : Rule y) :
    @told (no_index y.Value) o (call rule) = y.lifted o <$> call rule := rfl

@[simp] theorem lifted_unexpected : (unexpected : Parse α).lifted o = unexpected := rfl

@[simp] theorem told_unexpected : (unexpected : Parse α).told o = unexpected := rfl

@[simp] theorem lifted_isAt (k : Kind) : (isAt k).lifted o = isAt k := rfl

@[simp] theorem told_isAt (k : Kind) : (isAt k).told o = isAt k := rfl

@[simp] theorem lifted_isAtAny (ks : List Kind) : (isAtAny ks).lifted o = isAtAny ks := rfl

@[simp] theorem told_isAtAny (ks : List Kind) : (isAtAny ks).told o = isAtAny ks := rfl

@[simp] theorem told_expect (k : Kind) :
    (expect k).told o = Token.unplaced <$> (expect k).lifted o := by
  simp [expect]

@[simp] theorem told_expectAny (ks : List Kind) :
    (expectAny ks).told o = Token.unplaced <$> (expectAny ks).lifted o := by
  simp [expectAny]

@[simp] theorem lifted_accept? (k : Kind) : (accept? k).lifted o = accept? k := by
  simp [accept?]

@[simp] theorem told_accept? (k : Kind) :
    (accept? k).told o = Option.map Token.unplaced <$> (accept? k).lifted o := by
  simp [accept?]

@[simp] theorem told_accept (k : Kind) : (accept k).told o = (accept k).lifted o := by
  simp [accept]

end Parse
end ScriptSyntax
