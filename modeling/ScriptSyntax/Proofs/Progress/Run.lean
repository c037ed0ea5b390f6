import ScriptSyntax.Proofs.Progress.Consumed

/-! Runs of a parse that makes progress end, in a result or in an error that the source accounts
for. -/
namespace ScriptSyntax

/-- The error is one that the scanner meets, or a fault of the grammar at a token of the scanner. -/
inductive Scanner.Finds (s : Scanner) (e : Error) : Prop where
  | lexical {ts : List Token} {s' s'' : Scanner} (reads : s.Emits ts s')
      (stuck : s'.next = (.error e, s''))
  | syntactic {ts : List Token} {s' : Scanner} {t : Token} (reads : s.Emits ts s') (member : t ∈ ts)
      (fault : e.fault.IsGrammatical) (place : e.position = ⟨t.span.start, s.file⟩)

/-- Whether a token of the scanner begins at the place. -/
def Scanner.Places (s : Scanner) (p : Point) : Prop :=
  ∃ ts s' t, s.Emits ts s' ∧ t ∈ ts ∧ t.span.start = p

theorem Scanner.Emits.file {s s' : Scanner} {ts : List Token} (reads : s.Emits ts s') :
    s'.file = s.file := by
  induction reads with
  | nil => rfl
  | cons read _ ih =>
    obtain ⟨_, _, -, -, -, -, -, -, rfl⟩ := next_reads read
    exact ih

/-- The run ends, in a result as described or in an error that the scanner accounts for. -/
def Ends {α : Type} (s : Scanner) (run : Option (Cursor.Outcome α)) (post : α → Cursor → Prop) :
    Prop :=
  (∃ a c, run = some (.ok a, c) ∧ post a c) ∨ ∃ e c, run = some (.error e, c) ∧ s.Finds e

variable {α : Type} {s : Scanner} {c d : Cursor} {depth rank : Nat} {start : Point} {moved : Bool}
  {e : Error} {p : Parse α} {post : α → Bool → Kind → Prop}

/-- What was taken from a cursor that follows a scanner came from the scanner as well. -/
theorem Cursor.Takes.follows {ts : List Token} (takes : c.Takes ts d) (follows : c.Follows s) :
    d.Follows s := by
  obtain ⟨us, reads, split⟩ := takes
  obtain ⟨taken, before⟩ := follows
  refine ⟨taken ++ ts, ?_⟩
  rw [List.append_assoc, ← split]
  simpa using before.append reads

namespace Cursor.Follows

theorem places (follows : c.Follows s) : s.Places c.point := by
  obtain ⟨taken, reads⟩ := follows
  exact ⟨_, _, c.current, reads, by simp, rfl⟩

theorem finds_at (follows : c.Follows s) {p : Point} {fault : Fault}
    (grammatical : fault.IsGrammatical) (placed : s.Places p) : s.Finds (c.errorAt p fault) := by
  obtain ⟨ts, s', t, reads, member, rfl⟩ := placed
  obtain ⟨taken, before⟩ := follows
  exact .syntactic reads member grammatical (by rw [← before.file]; rfl)

theorem finds_next {ts : List Token} {s' s'' : Scanner} (follows : c.Follows s)
    (reads : c.scanner.Emits ts s') (stuck : s'.next = (.error e, s'')) : s.Finds e := by
  obtain ⟨taken, before⟩ := follows
  exact .lexical (before.append reads) stuck

end Cursor.Follows

/-- Rules that calls nest under up to the depth fail only with what the scanner accounts for. -/
def Accounted (s : Scanner) (depth : Nat) : Prop :=
  ∀ {y : Yield} (rule : Rule y) (c d : Cursor) (e : Error), c.Follows s →
    rule.run depth c = some (.error e, d) → s.Finds e

namespace Parse

theorem Proceeds.act_finds {action : Action} {next : action.Answer → Parse α}
    (walk : (step action next).Proceeds rank moved c.current.kind post) (rules : Accounted s depth)
    (follows : c.Follows s) (failed : act (Rule.run depth) action c = some (.error e, d)) :
    s.Finds e := by
  cases action with
  | peek distance =>
    rw [act] at failed
    rcases peeked : c.peek distance with ⟨e' | t, c'⟩ <;> rw [peeked] at failed <;> cases failed
    obtain ⟨ts, s', reads, stuck⟩ := Cursor.peek_error walk.1 peeked
    exact follows.finds_next reads stuck
  | shift => exact follows.finds_next .nil (Cursor.shift_error (Option.some.inj failed))
  | call rule => exact rules rule c d e follows failed
  | _ => cases failed

/-- A parse that makes progress fails only with what the scanner accounts for. -/
theorem Proceeds.finds (walk : p.Proceeds rank moved c.current.kind post)
    (rules : Accounted s depth) (follows : c.Follows s) (placed : s.Places start)
    (failed : p.exec (Rule.run depth) start c = some (.error e, d)) : s.Finds e := by
  induction p generalizing moved c with
  | done a => cases failed
  | fail blame fault =>
    cases blame with
    | here =>
      cases failed
      exact follows.finds_at (walk _) follows.places
    | start =>
      cases failed
      exact follows.finds_at (walk _) placed
  | step action next ih =>
    rw [exec] at failed
    rcases acted : act (Rule.run depth) action c with - | ⟨e' | answer, c'⟩ <;>
      rw [acted] at failed
    · cases failed
    · cases failed
      exact walk.act_finds rules follows acted
    · obtain ⟨takes, moved', walk', -⟩ := (walk.act_spends (thrifty depth)).behind answer c' acted
      exact ih answer walk' (takes.follows follows) failed

end Parse

theorem accounted (s : Scanner) (depth : Nat) : Accounted s depth := by
  induction depth with
  | zero => exact fun _ _ _ _ _ failed => nomatch failed
  | succ depth ih =>
    intro y rule c d e follows failed
    exact (rule.body_proceeds c.current.kind).finds ih follows follows.places failed

/-- A parse of a rank that the depth of the cursor allows for ends when it is run at the cursor. -/
theorem Cursor.Follows.run (follows : c.Follows s)
    (walk : p.Proceeds 4 false c.current.kind post) :
    Ends s (p.exec (Rule.run c.depth) c.point c) fun a c' => c'.Follows s ∧
      ∃ moved, post a moved c'.current.kind ∧ c'.left + moved.toNat ≤ c.left := by
  rcases ran : c.run p with ⟨e | a, d⟩ <;>
    have whole := (exec_eq_run walk (Nat.le_refl c.depth)).trans (congrArg some ran)
  · exact .inr ⟨e, d, whole, walk.finds (accounted s c.depth) follows follows.places whole⟩
  · have spends := spends_run walk
    obtain ⟨takes, moved, holds, made⟩ := spends.behind a d (congrArg some ran)
    refine .inl ⟨a, d, whole, takes.follows follows, moved, holds, ?_⟩
    have fewer := spends.left_le (congrArg some ran)
    cases moved with
    | false => exact Nat.le_trans (Nat.le_add_right ..) fewer
    | true =>
      have some := List.length_pos_iff.mpr (made rfl)
      rw [Bool.toNat_true]
      omega

/-- A run that ends is what the parse comes to with any depth that is great enough. -/
theorem Cursor.run_eq_of_ends {post : α → Cursor → Prop}
    (ends : Ends s (p.exec (Rule.run c.depth) c.point c) post) (le : c.depth ≤ depth) :
    p.exec (Rule.run depth) c.point c = some (c.run p) := by
  rw [Cursor.run]
  rcases ends with ⟨a, d, ran, -⟩ | ⟨e, d, ran, -⟩ <;>
    rw [ran, Option.getD_some] <;> exact Parse.exec_of_le le ran

end ScriptSyntax
