import ScriptSyntax.Proofs.Progress.Pull

/-! The tokens that a run takes and those that lie before it, told of any cursor, whatever was read
before and whatever its arena holds. -/
namespace ScriptSyntax

namespace Cursor

variable {c d e : Cursor} {t u : Token} {ts us : List Token}

/-- The tokens `ts` were taken between the two cursors. How far was looked ahead is left open. -/
def Takes (c : Cursor) (ts : List Token) (d : Cursor) : Prop :=
  ∃ us, c.scanner.Emits us d.scanner ∧
    c.current :: (c.pending ++ us) = ts ++ d.current :: d.pending

/-- The current token and those to come begin with `ts`. -/
def Faces (c : Cursor) (ts : List Token) : Prop :=
  ∃ us s, c.scanner.Emits us s ∧ ts <+: c.current :: (c.pending ++ us)

theorem Takes.refl (c : Cursor) : c.Takes [] c := ⟨[], .nil, by simp⟩

/-- What changes neither tokens nor scanner takes nothing. -/
theorem Takes.of_still (scanner : d.scanner = c.scanner) (current : d.current = c.current)
    (pending : d.pending = c.pending) : c.Takes [] d :=
  ⟨[], scanner ▸ .nil, by rw [current, pending, List.append_nil, List.nil_append]⟩

theorem Takes.of_peek {distance : Nat} (peeked : c.peek distance = (.ok t, d)) : c.Takes [] d := by
  obtain ⟨current, -, us, reads, pending⟩ := peek_ok peeked
  exact ⟨us, reads, by rw [current, pending, List.nil_append]⟩

theorem Takes.trans (first : c.Takes ts d) (second : d.Takes us e) : c.Takes (ts ++ us) e := by
  obtain ⟨vs, reads, split⟩ := first
  obtain ⟨ws, reads', split'⟩ := second
  refine ⟨vs ++ ws, reads.append reads', ?_⟩
  rw [List.append_assoc, ← split', ← List.append_assoc, ← List.cons_append, split,
    List.append_assoc, List.cons_append]

theorem Takes.of_shift (shifted : c.shift = (.ok t, d)) : t = c.current ∧ c.Takes [t] d := by
  obtain ⟨rfl, -, us, reads, same⟩ := shift_ok shifted
  exact ⟨rfl, us, reads, by simp [same]⟩

theorem faces_nil (c : Cursor) : c.Faces [] := ⟨[], _, .nil, List.nil_prefix⟩

/-- What was taken lies ahead, and so does what is faced behind it. -/
theorem Takes.faces_append (takes : c.Takes ts d) (faces : d.Faces us) : c.Faces (ts ++ us) := by
  obtain ⟨vs, reads, split⟩ := takes
  obtain ⟨ws, s, reads', before⟩ := faces
  refine ⟨vs ++ ws, s, reads.append reads', ?_⟩
  rw [← List.append_assoc, ← List.cons_append, split, List.append_assoc, List.cons_append]
  exact (List.prefix_append_right_inj ts).mpr before

theorem Takes.ahead (takes : c.Takes ts d) : c.Faces ts := by
  simpa using takes.faces_append d.faces_nil

/-- What is left to take is less by what was taken. -/
theorem Takes.left_le (takes : c.Takes ts d) : d.left + proper ts ≤ c.left := by
  obtain ⟨us, reads, split⟩ := takes
  have fewer := reads.proper_le
  have same := congrArg proper split
  rw [← List.cons_append, proper_append, proper_append] at same
  rw [left, left]
  omega

/-- What is taken need not be faced any more. -/
theorem Takes.faces (takes : c.Takes ts d) (faces : c.Faces (ts ++ us)) : d.Faces us := by
  obtain ⟨vs, reads, split⟩ := takes
  obtain ⟨ws, s, reads', before⟩ := faces
  rcases reads.prefix_total reads' with ⟨more, rfl⟩ | ⟨more, rfl⟩
  · obtain ⟨middle, again, later⟩ := reads'.exists_of_append
    obtain rfl := reads.unique again
    refine ⟨more, s, later, ?_⟩
    rw [← List.append_assoc, ← List.cons_append, split, List.append_assoc] at before
    exact (List.prefix_append_right_inj ts).mp before
  · refine ⟨[], d.scanner, .nil, (List.prefix_append_right_inj ts).mp ?_⟩
    rw [List.append_nil, ← split, ← List.append_assoc, ← List.cons_append]
    exact before.trans (List.prefix_append ..)

theorem Faces.mono (faces : c.Faces us) (before : ts <+: us) : c.Faces ts := by
  obtain ⟨vs, s, reads, ahead⟩ := faces
  exact ⟨vs, s, reads, before.trans ahead⟩

theorem Faces.current (faces : c.Faces (t :: ts)) : c.current = t := by
  obtain ⟨us, s, -, before⟩ := faces
  exact (List.cons_prefix_cons.mp before).1.symm

/-- A token is taken where another one follows it. -/
theorem Faces.shift (faces : c.Faces (t :: u :: ts)) :
    ∃ d, c.shift = (.ok t, d) ∧ c.Takes [t] d := by
  have ⟨d, shifted⟩ : ∃ d, c.shift = (.ok t, d) := by
    rw [← faces.current]
    obtain ⟨us, s, reads, before⟩ := faces
    rw [Cursor.shift]
    rcases pending : c.pending with - | ⟨v, vs⟩
    · rw [pending] at before
      cases reads with
      | nil => simp [List.cons_prefix_cons] at before
      | cons read _ => simp [pull, read, note]
    · exact ⟨_, rfl⟩
  exact ⟨d, shifted, (Takes.of_shift shifted).2⟩

/-- Tokens that are none of them the end of input are no more than the cursor allows for. -/
theorem Faces.length_lt (faces : c.Faces ts) (more : ∀ t ∈ ts, t.kind ≠ .eof) :
    ts.length < c.remaining := by
  obtain ⟨us, s, reads, before⟩ := faces
  have all := proper_eq_length more
  have within : proper ts ≤ proper (c.current :: (c.pending ++ us)) := before.sublist.countP_le
  have few : proper (c.current :: c.pending) ≤ (c.current :: c.pending).length :=
    List.countP_le_length
  have fewer := reads.proper_le
  rw [← List.cons_append, proper_append] at within
  rw [List.length_cons] at few
  rw [remaining]
  omega

/-- Where a source begins, all its tokens lie ahead. -/
theorem start_faces {source : String} {file : Option String} (ok : tokenize source file = .ok ts)
    (started : start source file = .ok c) : c.Faces ts := by
  obtain ⟨before, last, s, split, -, -, reads⟩ := Scanner.emits_of_tokenize ok
  rw [start] at started
  cases reads with
  | nil => simp at split
  | cons read later =>
    rw [read] at started
    cases started
    exact ⟨_, s, later, List.prefix_rfl⟩

/-- A run succeeds just as the parse does to the depth of the cursor. -/
theorem run_ok {α : Type} {p : Parse α} {a : α} :
    c.run p = (.ok a, d) ↔ p.exec (Rule.run c.depth) c.point c = some (.ok a, d) := by
  rw [run]
  rcases p.exec (Rule.run c.depth) c.point c with - | r <;> simp

end Cursor

/-- Each success of the parse from `c` takes tokens as described. -/
def Parse.Uses {α : Type} (depth : Nat) (start : Point) (p : Parse α) (c : Cursor)
    (post : α → List Token → Cursor → Prop) : Prop :=
  ∀ a d, p.exec (Rule.run depth) start c = some (.ok a, d) → ∃ ts, c.Takes ts d ∧ post a ts d

/-- Where the tokens `ts` and then `us` lie ahead, the parse succeeds with the value and takes just
the tokens `ts`. -/
def Parse.Reads {α : Type} (depth : Nat) (p : Parse α) (a : α) (ts us : List Token) : Prop :=
  ∀ start c, c.Faces (ts ++ us) →
    ∃ d, p.exec (Rule.run depth) start c = some (.ok a, d) ∧ c.Takes ts d

namespace Parse

variable {α β : Type} {depth : Nat} {start : Point} {c d e : Cursor} {p : Parse α}
  {f : α → Parse β} {a : α} {b : β} {k : Kind} {t u : Token} {ts us : List Token}

theorem Uses.pure {post : α → List Token → Cursor → Prop} (holds : post a [] c) :
    (Pure.pure a : Parse α).Uses depth start c post := by
  rintro _ _ ⟨⟩
  exact ⟨[], .refl c, holds⟩

theorem Uses.fail {blame : Blame} {fault : String → Fault} {post : α → List Token → Cursor → Prop} :
    (Parse.fail blame fault : Parse α).Uses depth start c post := by
  intro a d ran
  cases blame <;> cases ran

theorem Uses.bind {mid : α → List Token → Cursor → Prop} {post : β → List Token → Cursor → Prop}
    (first : p.Uses depth start c mid) (rest : ∀ a ts d, mid a ts d →
      (f a).Uses depth start d fun b us e => post b (ts ++ us) e) :
    (p >>= f).Uses depth start c post := by
  intro b e ran
  obtain ⟨a, d, ran, ran'⟩ := exec_bind_ok.mp ran
  obtain ⟨ts, takes, holds⟩ := first a d ran
  obtain ⟨us, takes', holds'⟩ := rest a ts d holds b e ran'
  exact ⟨ts ++ us, takes.trans takes', holds'⟩

theorem Uses.current {post : β → List Token → Cursor → Prop} {f : Kind → Parse β}
    (rest : (f c.current.kind).Uses depth start c post) :
    (Parse.current >>= f).Uses depth start c post := rest

theorem Uses.isAt {post : β → List Token → Cursor → Prop} {f : Bool → Parse β}
    (rest : (f (decide (c.current.kind = k))).Uses depth start c post) :
    (Parse.isAt k >>= f).Uses depth start c post := rest

theorem uses_shift : shift.Uses depth start c fun t ts _ => t = c.current ∧ ts = [c.current] := by
  intro t d ran
  obtain ⟨rfl, takes⟩ :=
    Cursor.Takes.of_shift (Option.some.inj ((exec_perform .shift).symm.trans ran))
  exact ⟨_, takes, rfl, rfl⟩

/-- A call may start anywhere, since a success does not depend on where it started. -/
theorem uses_call {y : Yield} {rule : Rule y} {post : y.Value → List Token → Cursor → Prop}
    (uses : rule.body.Uses depth c.point c post) : (call rule).Uses (depth + 1) start c post :=
  fun a d ran => uses a d ((exec_perform (.call rule)).symm.trans ran)

theorem uses_expect : (expect k).Uses depth start c fun t ts _ =>
    t = c.current ∧ t.kind = k ∧ ts = [c.current] := by
  refine .isAt ?_
  simp only [decide_eq_true_eq]
  split
  · next found =>
    intro t d ran
    obtain ⟨ts, takes, rfl, rfl⟩ := uses_shift t d ran
    exact ⟨_, takes, rfl, found, rfl⟩
  · exact .fail

/-- An optional token of the kind is taken. -/
theorem uses_accept? : (accept? k).Uses depth start c fun o ts _ =>
    (∀ t ∈ o, t.kind = k) ∧ ts = o.toList := by
  refine .isAt ?_
  simp only [decide_eq_true_eq]
  split
  · next found =>
    refine uses_shift.bind ?_
    rintro _ _ d ⟨rfl, rfl⟩
    exact .pure ⟨by simpa using found, rfl⟩
  · exact .pure ⟨by simp, rfl⟩

theorem uses_accept : (accept k).Uses depth start c fun b ts _ => ∃ o : Option Token,
    b = o.isSome ∧ (∀ t ∈ o, t.kind = k) ∧ ts = o.toList := by
  refine uses_accept?.bind ?_
  rintro o ts d ⟨is, rfl⟩
  exact .pure ⟨o, rfl, is, by simp⟩

variable {vs : List Token}

theorem reads_pure : (pure a : Parse α).Reads depth a [] us :=
  fun _ c _ => ⟨c, rfl, .refl c⟩

theorem Reads.bind (first : p.Reads depth a ts (us ++ vs)) (rest : (f a).Reads depth b us vs) :
    (p >>= f).Reads depth b (ts ++ us) vs := by
  intro start c faces
  rw [List.append_assoc] at faces
  obtain ⟨d, ran, takes⟩ := first start c faces
  obtain ⟨e, ran', takes'⟩ := rest start d (takes.faces faces)
  exact ⟨e, exec_bind_ok.mpr ⟨a, d, ran, ran'⟩, takes.trans takes'⟩

/-- What follows the last token that is read reads none. -/
theorem Reads.last (first : p.Reads depth a ts vs) (rest : (f a).Reads depth b [] vs) :
    (p >>= f).Reads depth b ts vs := by
  rw [← List.append_nil ts]
  exact Reads.bind (by simpa using first) rest

/-- The first of the tokens ahead is the current one. -/
theorem reads_current {f : Kind → Parse α} (ahead : ts ++ us = t :: vs)
    (rest : (f t.kind).Reads depth a ts us) : (current >>= f).Reads depth a ts us := by
  intro start c faces
  have same : c.current = t := (ahead ▸ faces).current
  change ∃ d, (f c.current.kind).exec _ start c = _ ∧ _
  rw [same]
  exact rest start c faces

theorem reads_isAt {f : Bool → Parse α} (ahead : ts ++ us = t :: vs)
    (rest : (f (decide (t.kind = k))).Reads depth a ts us) : (isAt k >>= f).Reads depth a ts us :=
  reads_current (f := fun kind => f (decide (kind = k))) ahead rest

theorem reads_shift (more : us ≠ []) : shift.Reads depth t [t] us := by
  obtain ⟨u, us, rfl⟩ := List.exists_cons_of_ne_nil more
  intro start c faces
  obtain ⟨d, shifted, takes⟩ := faces.shift
  exact ⟨d, (exec_perform .shift).trans (congrArg some shifted), takes⟩

theorem reads_cons {f : Token → Parse α} (more : ts ++ us ≠ [])
    (rest : (f t).Reads depth a ts us) : (shift >>= f).Reads depth a (t :: ts) us :=
  (reads_shift more).bind rest

theorem reads_call {y : Yield} {rule : Rule y} {a : y.Value}
    (reads : rule.body.Reads depth a ts us) :
    (call rule).Reads (depth + 1) a ts us := by
  intro start c faces
  obtain ⟨d, ran, takes⟩ := reads c.point c faces
  exact ⟨d, (exec_perform (.call rule)).trans ran, takes⟩

theorem reads_expect (is : t.kind = k) (more : us ≠ []) : (expect k).Reads depth t [t] us := by
  refine reads_isAt rfl ?_
  rw [if_pos (decide_eq_true is)]
  exact reads_shift more

theorem reads_accept? {o : Option Token} (is : ∀ t ∈ o, t.kind = k)
    (other : ∀ u ∈ us.head?, o = none → u.kind ≠ k) (more : us ≠ []) :
    (accept? k).Reads depth o o.toList us := by
  obtain ⟨u, us, rfl⟩ := List.exists_cons_of_ne_nil more
  rcases o with - | t
  · refine reads_isAt rfl ?_
    simp only [other u rfl rfl, decide_false, Bool.false_eq_true, if_false]
    exact reads_pure
  · refine reads_isAt rfl ?_
    simp only [is t rfl, decide_true, if_true]
    exact (reads_shift more).last reads_pure

theorem reads_accept {o : Option Token} (is : ∀ t ∈ o, t.kind = k)
    (other : ∀ u ∈ us.head?, o = none → u.kind ≠ k) (more : us ≠ []) :
    (accept k).Reads depth o.isSome o.toList us :=
  (reads_accept? is other more).last reads_pure

end Parse
end ScriptSyntax
