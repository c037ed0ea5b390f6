import ScriptSyntax.Proofs.Calls.Supply
import ScriptSyntax.Proofs.Derivation.Statement
import ScriptSyntax.Proofs.Scan.Prolonging
import ScriptSyntax.Proofs.Signs.Grammar

/-! The calls of a run that come to an end, in runs that fail too, and the tokens that were taken
when they do. -/
namespace ScriptSyntax

open Scanner (endsOperand)

/-- The tokens of the scanner that were taken before the cursor came to stand where it does. -/
def Cursor.After (c : Cursor) (s : Scanner) (taken : List Token) : Prop :=
  s.Emits (taken ++ c.current :: c.pending) c.scanner

/-- In the run of the parse from the cursor, with calls that nest up to a depth, a call of the rule
ends with the value and leaves the cursor `d`. -/
inductive Parse.Returns {y : Yield} (rule : Rule y) (value : y.Value) (d : Cursor) :
    Nat → {α : Type} → Parse α → Cursor → Prop where
  | here {α : Type} {depth : Nat} {c : Cursor} {next : y.Value → Parse α}
      (ran : rule.run depth c = some (.ok value, d)) :
      Returns rule value d depth (.step (.call rule) next) c
  | inside {α : Type} {depth : Nat} {z : Yield} {called : Rule z} {c : Cursor}
      {next : z.Value → Parse α} (returns : Returns rule value d depth called.body c) :
      Returns rule value d (depth + 1) (.step (.call called) next) c
  | later {α : Type} {depth : Nat} {c c' : Cursor} {action : Action} {answer : action.Answer}
      {next : action.Answer → Parse α}
      (acted : Parse.act (Rule.run depth) action c = some (.ok answer, c'))
      (returns : Returns rule value d depth (next answer) c') :
      Returns rule value d depth (.step action next) c

/-- A number behind what ends an operand has no minus. -/
theorem Lexeme.Fits.unsigned {k : Kind} {l : Lexeme} (fits : l.Fits (some k))
    (ends : endsOperand k = true) (number : l.kind ∈ [Kind.intVal, .realVal]) :
    l.value.toList.head? ≠ some '-' := by
  have bare {sign : List Char} (signed : Sign (some k) sign) : sign = [] := by
    cases signed with
    | none => rfl
    | minus free => simp [ends] at free
  cases fits with
  | spelled own written =>
    simp only [List.mem_cons, List.not_mem_nil, or_false] at number
    rcases number with rfl | rfl <;> exact absurd rfl written
  | name | text => simp at number
  | int signed some decimal =>
    rw [bare signed, List.nil_append, String.toList_ofList]
    intro minus
    exact absurd (decimal _ (List.mem_of_head? minus)) (by decide)
  | @real _ whole fraction signed anchored some decimal decimal' =>
    rw [bare signed, List.nil_append, String.toList_ofList]
    cases whole with
    | nil => simp
    | cons c whole =>
      rintro ⟨⟩
      exact absurd (decimal '-' (by simp)) (by decide)

namespace Scanner

variable {s s' s'' : Scanner} {t u : Token} {ts us : List Token}

theorem Emits.unsigned (reads : s.Emits (ts ++ t :: u :: us) s')
    (ends : endsOperand t.kind = true) : u.isNegative = false := by
  obtain ⟨_, -, later⟩ := reads.exists_of_append
  cases later with
  | cons read rest =>
    cases rest with
    | cons read' _ =>
      obtain ⟨-, -, -, -, -, -, previous, -, -⟩ := next_lexeme read
      obtain ⟨-, -, -, -, -, -, -, -, eof | fits⟩ := next_lexeme read'
      · have is : u.kind = .eof := congrArg Lexeme.kind eof.1
        simp [Token.isNegative, is]
      · rw [previous] at fits
        by_cases number : u.kind ∈ [Kind.intVal, .realVal]
        · have plain : u.value.toList.head? ≠ some '-' := fits.unsigned ends number
          simp [Token.isNegative, plain]
        · simp only [Token.isNegative, List.contains_eq_mem, number, decide_false, Bool.false_and]

theorem Emits.not_eof (reads : s.Emits (ts ++ t :: us) s') (more : t.kind ≠ .eof) :
    ∀ u ∈ ts, u.kind ≠ .eof := by
  intro u member eof
  obtain ⟨before, between, rfl⟩ := List.append_of_mem member
  rw [List.append_assoc] at reads
  obtain ⟨_, -, later⟩ := reads.exists_of_append
  cases later with
  | cons read rest =>
    have same := (rest.after_eof read eof).2 t (by simp)
    exact more (same ▸ eof)

/-- Only the end of input comes again. -/
theorem Emits.eof_of_again (reads : s.Emits (t :: ts ++ t :: us) s') : t.kind = .eof := by
  by_contra more
  have before := reads.not_eof more
  rw [List.append_cons] at reads
  obtain ⟨_, within, -⟩ := reads.exists_of_append
  have distinct := within.nodup before
  simp at distinct

/-- What was read before a token does not depend on what is read after it. -/
theorem Emits.eq_before {vs ws : List Token} (reads : s.Emits (ts ++ t :: us) s')
    (reads' : s.Emits (vs ++ t :: ws) s'') (more : t.kind ≠ .eof) : ts = vs := by
  induction ts generalizing s vs with
  | nil =>
    cases vs with
    | nil => rfl
    | cons v vs =>
      cases reads with
      | cons read _ =>
        cases reads' with
        | cons read' later =>
          cases read.symm.trans read'
          exact absurd (Emits.cons read' later).eof_of_again more
  | cons u ts ih =>
    cases reads with
    | cons read later =>
      cases vs with
      | nil =>
        cases reads' with
        | cons read' _ =>
          cases read.symm.trans read'
          exact absurd (Emits.cons read later).eof_of_again more
      | cons v vs =>
        cases reads' with
        | cons read' later' =>
          cases read.symm.trans read'
          rw [ih later later']

/-- The kind of the token of this number, as far as the source can be read. -/
def kinds (s : Scanner) (n : Nat) : Kind := ((s.nth n).toOption.map Token.kind).getD .eof

theorem Emits.kinds (reads : s.Emits ts s') (found : ts[n]? = some t) : s.kinds n = t.kind := by
  rw [Scanner.kinds, reads.nth, supply, found]
  rfl

end Scanner

namespace Cursor

variable {c d : Cursor} {s : Scanner} {taken : List Token} {t : Token} {k : Kind} {distance : Nat}
  {depth : Nat}

namespace After

theorem kind (after : c.After s taken) : s.kinds taken.length = c.current.kind :=
  Scanner.Emits.kinds after (by simp)

/-- What changes neither tokens nor scanner leaves the cursor where it is. -/
theorem stay (after : c.After s taken) (scanner : d.scanner = c.scanner)
    (current : d.current = c.current) (pending : d.pending = c.pending) : d.After s taken := by
  rwa [After, scanner, current, pending]

theorem shift (after : c.After s taken) (shifted : c.shift = (.ok t, d)) :
    d.After s (taken ++ [c.current]) := by
  obtain ⟨-, -, us, reads, same⟩ := shift_ok shifted
  rw [After, same]
  simpa using Scanner.Emits.append after reads

theorem peek (after : c.After s taken) (peeked : c.peek distance = (.ok t, d)) :
    d.After s taken ∧ s.kinds (taken.length + distance) = t.kind := by
  rw [Cursor.peek] at peeked
  split at peeked
  · cases peeked
  · next within =>
    split at peeked
    · next e filled =>
      cases peeked
      obtain ⟨us, reads, pending, current, -⟩ := fill_ok filled
      have long := fill_length filled
      have later : d.After s taken := by
        rw [After, pending, current]
        simpa using Scanner.Emits.append after reads
      refine ⟨later, Scanner.Emits.kinds later ?_⟩
      obtain ⟨distance, rfl⟩ : ∃ n, distance = n + 1 := ⟨distance - 1, by omega⟩
      have inside : distance < d.pending.length := by omega
      simp [inside]
    · cases peeked

end After
end Cursor

namespace Parse

variable {α : Type} {depth : Nat} {start : Point} {c d : Cursor} {s : Scanner} {taken : List Token}
  {p : Parse α} {a : α} {post : α → Nat → Prop}

/-- Calls that nest up to the depth end where their rules are said to. -/
def Heeded (s : Scanner) (depth : Nat) : Prop :=
  ∀ {y : Yield} (rule : Rule y) (c d : Cursor) (taken : List Token) (a : y.Value),
    c.After s taken → rule.Enters s.kinds taken.length → rule.run depth c = some (.ok a, d) →
    ∃ us, d.After s (taken ++ us) ∧ rule.Leaves s.kinds (taken ++ us).length

/-- What an action comes to is what the parse goes on with. -/
theorem Treads.act {action : Action} {answer : action.Answer} {next : action.Answer → Parse α}
    (rules : Heeded s depth) (treads : (step action next).Treads s.kinds taken.length post)
    (after : c.After s taken) (acted : act (Rule.run depth) action c = some (.ok answer, d)) :
    ∃ us, d.After s (taken ++ us) ∧
      (next answer).Treads s.kinds (taken ++ us).length post := by
  have still (treads : (next answer).Treads s.kinds taken.length post)
      (later : d.After s taken) : ∃ us, d.After s (taken ++ us) ∧
        (next answer).Treads s.kinds (taken ++ us).length post :=
    ⟨[], by simpa using later, by simpa using treads⟩
  cases action with
  | current =>
    cases acted
    exact still (after.kind ▸ treads) after
  | peek distance =>
    simp only [Parse.act, Option.some.injEq] at acted
    rcases peeked : c.peek distance with ⟨e | t, e'⟩ <;> rw [peeked] at acted <;> cases acted
    obtain ⟨later, kind⟩ := after.peek peeked
    exact still (kind ▸ treads) later
  | shift =>
    exact ⟨[c.current], after.shift (Option.some.inj acted), by simpa using treads answer⟩
  | call rule =>
    obtain ⟨us, later, leaves⟩ := rules rule c d taken answer after treads.1 acted
    exact ⟨us, later, treads.2 answer _ leaves⟩
  | settle id =>
    obtain ⟨current, pending, scanner, -⟩ := c.regroup_keeps id
    cases acted
    exact still (treads _) (after.stay scanner current pending)
  | add | inspect | freeze | announce =>
    cases acted
    exact still (treads _) (after.stay rfl rfl rfl)

theorem Treads.exec (rules : Heeded s depth) (treads : p.Treads s.kinds taken.length post)
    (after : c.After s taken) (ran : p.exec (Rule.run depth) start c = some (.ok a, d)) :
    ∃ us, d.After s (taken ++ us) ∧ post a (taken ++ us).length := by
  induction p generalizing c taken with
  | done b =>
    cases ran
    rw [← List.append_nil taken] at after treads
    exact ⟨[], after, treads⟩
  | fail blame fault => cases blame <;> cases ran
  | step action next ih =>
    obtain ⟨answer, e, acted, ran⟩ := exec_step_ok.mp ran
    obtain ⟨us, later, treads⟩ := treads.act rules after acted
    obtain ⟨vs, final, holds⟩ := ih answer treads later ran
    rw [List.append_assoc] at final holds
    exact ⟨us ++ vs, final, holds⟩

theorem heeded (s : Scanner) (depth : Nat) : Heeded s depth := by
  induction depth with
  | zero => exact fun _ _ _ _ _ _ _ ran => nomatch ran
  | succ depth ih =>
    intro y rule c d taken a after enters ran
    exact (rule.body_treads enters).exec ih after ran

/-- A call that ends was made where its rule may be called. -/
theorem Returns.called {y : Yield} {rule : Rule y} {value : y.Value}
    (returns : p.Returns rule value d depth c) (treads : p.Treads s.kinds taken.length post)
    (after : c.After s taken) (apt : p.Apt depth c) :
    ∃ (e : Cursor) (depth' : Nat) (taken' : List Token), e.After s taken' ∧
      rule.Enters s.kinds taken'.length ∧ (Action.call rule).Apt e ∧
      rule.run depth' e = some (.ok value, d) := by
  induction returns generalizing taken with
  | here ran => exact ⟨_, _, taken, after, treads.1, apt.1, ran⟩
  | @inside _ depth _ called c next returns ih =>
    obtain ⟨_, _, _, ready⟩ := apt.1
    exact ih (called.body_treads treads.1) after (ready.apt depth)
  | later acted returns ih =>
    obtain ⟨us, after, treads⟩ := treads.act (heeded s _) after acted
    exact ih treads after (apt.2 _ _ acted)

end Parse
end ScriptSyntax
