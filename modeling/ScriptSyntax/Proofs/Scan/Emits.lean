import ScriptSyntax.Proofs.Scan.Progress

/-! The tokens that a scanner gives one after the other, and their places. -/
namespace ScriptSyntax.Scanner

/-- The scanner gives the tokens one after the other. -/
inductive Emits : Scanner → List Token → Scanner → Prop where
  | nil {s : Scanner} : Emits s [] s
  | cons {s s' s'' : Scanner} {t : Token} {ts : List Token}
      (read : s.next = (.ok t, s')) (rest : Emits s' ts s'') : Emits s (t :: ts) s''

variable {s s' s'' : Scanner} {t last : Token} {ts us : List Token}

theorem Emits.append (first : s.Emits ts s') (second : s'.Emits us s'') :
    s.Emits (ts ++ us) s'' := by
  induction first with
  | nil => exact second
  | cons read _ ih => exact .cons read (ih second)

theorem Emits.snoc (first : s.Emits ts s') (read : s'.next = (.ok t, s'')) :
    s.Emits (ts ++ [t]) s'' :=
  first.append (.cons read .nil)

theorem Emits.exists_of_append (reads : s.Emits (ts ++ us) s'') :
    ∃ s', s.Emits ts s' ∧ s'.Emits us s'' := by
  induction ts generalizing s with
  | nil => exact ⟨s, .nil, reads⟩
  | cons t rest ih =>
    cases reads with
    | cons read later =>
      obtain ⟨s', first, second⟩ := ih later
      exact ⟨s', .cons read first, second⟩

/-- A scanner gives the same tokens however far it is read. -/
theorem Emits.prefix_total (first : s.Emits ts s') (second : s.Emits us s'') :
    ts <+: us ∨ us <+: ts := by
  induction first generalizing us with
  | nil => exact .inl (List.nil_prefix)
  | cons read _ ih =>
    cases second with
    | nil => exact .inr (List.nil_prefix)
    | cons again later =>
      cases read.symm.trans again
      exact (ih later).imp (fun h => List.cons_prefix_cons.mpr ⟨rfl, h⟩)
        (fun h => List.cons_prefix_cons.mpr ⟨rfl, h⟩)

theorem Emits.unique (first : s.Emits ts s') (second : s.Emits ts s'') : s' = s'' := by
  induction first with
  | nil =>
    cases second
    rfl
  | cons read _ ih =>
    cases second with
    | cons again later =>
      cases read.symm.trans again
      exact ih later

/-- Nothing is given past an error. -/
theorem Emits.prefix_of_error {e : Error} (first : s.Emits ts s')
    (stuck : s'.next = (.error e, s'')) {final : Scanner} (second : s.Emits us final) :
    us <+: ts := by
  rcases first.prefix_total second with ⟨more, rfl⟩ | shorter
  · obtain ⟨middle, same, later⟩ := second.exists_of_append
    obtain rfl := first.unique same
    cases later with
    | nil => simp
    | cons read _ => simp [stuck] at read
  · exact shorter

/-- With more steps than there are characters, the tokens through the end of input are reached. -/
theorem Emits.tokensWithin (reads : s.Emits (ts ++ last :: us) s')
    (more : ∀ t ∈ ts, t.kind ≠ .eof) (eof : last.kind = .eof) {steps : Nat}
    (enough : s.rest.length < steps) : s.tokensWithin steps = (ts ++ [last], none) := by
  induction ts generalizing s steps with
  | nil =>
    cases reads with
    | cons read _ =>
      cases steps with
      | zero => omega
      | succ steps => simp [Scanner.tokensWithin, read, eof]
  | cons t rest ih =>
    cases reads with
    | cons read reads =>
      have inner := more t (by simp)
      have shorter := next_shortens read inner
      cases steps with
      | zero => omega
      | succ steps =>
        have later := ih reads (fun u member => more u (by simp [member]))
          (Nat.lt_of_lt_of_le shorter (Nat.le_of_lt_succ enough))
        simp [Scanner.tokensWithin, read, inner, later]

theorem Emits.tokenize {source : String} {file : Option String}
    (reads : (ofText source file).Emits (ts ++ last :: us) s') (more : ∀ t ∈ ts, t.kind ≠ .eof)
    (eof : last.kind = .eof) : tokenize source file = .ok (ts ++ [last]) := by
  simp [ScriptSyntax.tokenize, tokens, reads.tokensWithin more eof (Nat.lt_succ_self _)]

/-- The tokens of a scanner that meets no error end in the end of input. -/
theorem emits_of_tokensWithin {steps : Nat} (enough : s.rest.length < steps)
    (given : s.tokensWithin steps = (us, none)) :
    ∃ ts last s', us = ts ++ [last] ∧ (∀ t ∈ ts, t.kind ≠ .eof) ∧ last.kind = .eof ∧
      s.Emits us s' := by
  induction steps generalizing s us with
  | zero => omega
  | succ steps ih =>
    simp only [Scanner.tokensWithin] at given
    split at given
    · simp at given
    · next t s' read =>
      split at given
      · next eof =>
        cases given
        exact ⟨[], t, s', rfl, by simp, eof, .cons read .nil⟩
      · next more =>
        have shorter := next_shortens read more
        obtain ⟨rfl, clean⟩ := Prod.mk.inj given
        obtain ⟨ts, last, final, split, inner, eof, reads⟩ :=
          ih (by omega) (Prod.ext rfl clean)
        exact ⟨t :: ts, last, final, congrArg (t :: ·) split,
          List.forall_mem_cons.mpr ⟨more, inner⟩, eof, .cons read reads⟩

/-- The tokens of a scanner that meets an error are those before it. -/
theorem emits_of_tokensWithin_error {steps : Nat} {e : Error}
    (given : s.tokensWithin steps = (ts, some e)) :
    (∀ t ∈ ts, t.kind ≠ .eof) ∧ ∃ s' s'', s.Emits ts s' ∧ s'.next = (.error e, s'') := by
  induction steps generalizing s ts with
  | zero => simp [Scanner.tokensWithin] at given
  | succ steps ih =>
    simp only [Scanner.tokensWithin] at given
    split at given
    · next s' read =>
      cases given
      exact ⟨by simp, s, s', .nil, read⟩
    · next t s' read =>
      split at given
      · simp at given
      · next more =>
        obtain ⟨rfl, failed⟩ := Prod.mk.inj given
        obtain ⟨inner, stop, after, reads, stuck⟩ := ih (Prod.ext rfl failed)
        exact ⟨List.forall_mem_cons.mpr ⟨more, inner⟩, stop, after, .cons read reads, stuck⟩

theorem emits_of_tokenize {source : String} {file : Option String}
    (ok : ScriptSyntax.tokenize source file = .ok us) :
    ∃ ts last s', us = ts ++ [last] ∧ (∀ t ∈ ts, t.kind ≠ .eof) ∧ last.kind = .eof ∧
      (ofText source file).Emits us s' := by
  unfold ScriptSyntax.tokenize at ok
  split at ok
  · next ts clean =>
    cases ok
    exact emits_of_tokensWithin (Nat.lt_succ_self _) clean
  · contradiction

theorem ends_of_tokenize {source : String} {file : Option String}
    (ok : ScriptSyntax.tokenize source file = .ok (ts ++ [last])) :
    (∀ t ∈ ts, t.kind ≠ .eof) ∧ last.kind = .eof ∧
      ∃ s s', (ofText source file).Emits ts s ∧ s.next = (.ok last, s') := by
  obtain ⟨_, _, s', same, more, eof, reads⟩ := emits_of_tokenize ok
  obtain ⟨rfl, final⟩ := List.append_inj' same rfl
  cases final
  obtain ⟨s, inner, ended⟩ := reads.exists_of_append
  cases ended with
  | cons given _ => exact ⟨more, eof, s, _, inner, given⟩

theorem start_of_next (read : s.next = (.ok t, s')) :
    t.span.start = s.point ∨ s.point.Before t.span.start := by
  obtain ⟨gap, -, -, start, -⟩ := next_ok read
  rw [start]
  exact Point.eq_or_before_advance s.point gap

theorem start_before_next (read : s.next = (.ok t, s')) (more : t.kind ≠ .eof) :
    t.span.start.Before s'.point := by
  obtain ⟨-, written, -, -, stop, nonempty⟩ := next_ok read
  rw [stop]
  exact Point.before_advance t.span.start (nonempty more)

theorem Emits.start (reads : s.Emits (ts ++ [last]) s') (more : ∀ t ∈ ts, t.kind ≠ .eof) :
    ∀ u ∈ ts ++ [last], u.span.start = s.point ∨ s.point.Before u.span.start := by
  induction ts generalizing s with
  | nil =>
    cases reads with
    | cons read _ =>
      rintro u member
      rw [List.mem_singleton.mp member]
      exact start_of_next read
  | cons t rest ih =>
    cases reads with
    | cons read reads =>
      have here := start_of_next read
      rw [List.cons_append, List.forall_mem_cons]
      refine ⟨here, fun u member => ?_⟩
      have forward := start_before_next read (more t (by simp))
      have ahead : t.span.start.Before u.span.start := by
        rcases ih reads (fun v h => more v (by simp [h])) u member with same | before
        · rwa [same]
        · exact forward.trans before
      rcases here with same | before
      · exact .inr (same ▸ ahead)
      · exact .inr (before.trans ahead)

/-- Tokens through the end of input stand at growing places. -/
theorem Emits.pairwise (reads : s.Emits (ts ++ [last]) s') (more : ∀ t ∈ ts, t.kind ≠ .eof) :
    (ts ++ [last]).Pairwise fun t u => t.span.start.Before u.span.start := by
  induction ts generalizing s with
  | nil => simp
  | cons t rest ih =>
    cases reads with
    | cons read reads =>
      have later : ∀ v ∈ rest, v.kind ≠ .eof := fun v h => more v (by simp [h])
      have forward := start_before_next read (more t (by simp))
      refine List.pairwise_cons.mpr ⟨fun u member => ?_, ih reads later⟩
      rcases reads.start later u member with same | before
      · rwa [same]
      · exact forward.trans before

theorem Emits.nodup (reads : s.Emits (ts ++ [last]) s') (more : ∀ t ∈ ts, t.kind ≠ .eof) :
    (ts ++ [last]).Nodup := by
  refine (reads.pairwise more).imp fun {t u} before same => ?_
  rw [same] at before
  exact Point.Before.irrefl before

end ScriptSyntax.Scanner
