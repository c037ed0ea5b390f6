import ScriptSyntax.Proofs.Bodies.Verge
import ScriptSyntax.Proofs.Derivation.Nesting
import ScriptSyntax.Proofs.Derivation.Statement

/-! Two sources that differ in how one empty body is written. What stands between its keyword and
the braces leads to them, and behind the braces the sources are the same again. -/
namespace ScriptSyntax

open Cursor (Level)

section Places

variable {tokens : Nat → Token} {i j n : Nat} {ts us vs : List Token} {t : Token}

/-- The tokens stand at the place and at those after it. -/
def Lies (tokens : Nat → Token) (i : Nat) (ts : List Token) : Prop :=
  ∀ n (inside : n < ts.length), tokens (i + n) = ts[n]

theorem lies_cons : Lies tokens i (t :: ts) ↔ tokens i = t ∧ Lies tokens (i + 1) ts := by
  refine ⟨fun lies => ⟨lies 0 (Nat.succ_pos _), fun n inside => ?_⟩,
    fun ⟨first, rest⟩ n inside => ?_⟩
  · rw [Nat.add_right_comm]
    exact lies (n + 1) (Nat.succ_lt_succ inside)
  · cases n with
    | zero => exact first
    | succ n =>
      rw [← Nat.add_assoc, Nat.add_right_comm]
      exact rest n (Nat.lt_of_succ_lt_succ inside)

theorem lies_append :
    Lies tokens i (ts ++ us) ↔ Lies tokens i ts ∧ Lies tokens (i + ts.length) us := by
  induction ts generalizing i with
  | nil => simp [Lies]
  | cons t ts ih =>
    rw [List.cons_append, lies_cons, lies_cons, ih, and_assoc, List.length_cons, Nat.add_assoc i 1,
      Nat.add_comm 1]

theorem lies_getElem? (xs ts ys : List Token) (last : Token) :
    Lies (fun n => (xs ++ (ts ++ ys))[n]?.getD last) xs.length ts := by
  intro n inside
  dsimp only
  rw [List.getElem?_append_right (Nat.le_add_right ..), Nat.add_sub_cancel_left,
    List.getElem?_append_left inside, List.getElem?_eq_getElem inside, Option.getD_some]

/-- Of two lists at one place the shorter one begins the other. -/
theorem Lies.prefix_of_le (lies : Lies tokens i ts) (lies' : Lies tokens i us)
    (le : ts.length ≤ us.length) : ∃ rest, us = ts ++ rest := by
  refine ⟨us.drop ts.length, List.ext_getElem (by simp; omega) fun n inside _ => ?_⟩
  rw [← lies' n inside, List.getElem_append]
  split
  · next within => exact lies n within
  · rw [List.getElem_drop, lies' n inside]
    congr 1
    omega

/-- What stands here as well and does not go past the token `t` is followed by that token. -/
theorem Lies.exists_append (lies : Lies tokens i (us ++ t :: vs)) (lies' : Lies tokens i ts)
    (short : ∀ rest, ts ≠ us ++ t :: rest) : ∃ rest, us = ts ++ rest := by
  rw [lies_append, lies_cons] at lies
  by_cases le : ts.length ≤ us.length
  · exact lies'.prefix_of_le lies.1 le
  · have further : Lies tokens i (us ++ [t]) := lies_append.mpr ⟨lies.1, lies_cons.mpr
      ⟨lies.2.1, nofun⟩⟩
    obtain ⟨rest, rfl⟩ := further.prefix_of_le lies' (by simp; omega)
    exact absurd (List.append_assoc ..) (short rest)

namespace Cursor.At

variable {c d : Cursor} {s : Scanner} {base : List Token} {forest trees : List Tree}

/-- What is taken from a place on stands there. -/
theorem lies (here : c.At s base forest) (later : d.At s (base ++ ts) trees)
    (walks : c.Walks tokens i) : Lies tokens i ts := by
  intro m inside
  refine Except.ok.inj ((walks.nth here.reads m).symm.trans ?_)
  rw [later.reads.nth, supply, List.append_assoc,
    List.getElem?_append_right (Nat.le_add_right ..), Nat.add_sub_cancel_left,
    List.getElem?_append_left inside, List.getElem?_eq_getElem inside]
  rfl

/-- The place of a cursor before the end is told by what was taken on the way. -/
theorem place_eq (here : c.At s base forest) (later : d.At s (base ++ ts) trees)
    (walks : c.Walks tokens i) (walks' : d.Walks tokens j) (ends : EndsAt tokens n)
    (inside : i + ts.length < n) : i + ts.length = j := by
  refine ends.place_eq (fun m => ?_) inside
  have same := (walks.nth here.reads (ts.length + m)).symm.trans
    ((congrArg (s.nth ·) (by simp [Nat.add_assoc])).trans (walks'.nth later.reads m))
  rw [Nat.add_assoc]
  exact Except.ok.inj same

end Cursor.At

end Places

/-! What leads to the braces. -/

/-- An empty body, in one token or in two. -/
inductive EmptyBraces : List Token → Prop where
  | fused {token : Token} : token.kind = .mapType → EmptyBraces [token]
  | apart {opener closer : Token} : opener.kind = .scopeOpen → closer.kind = .scopeClose →
      EmptyBraces [opener, closer]

theorem EmptyBraces.ne_eof {ts : List Token} (empty : EmptyBraces ts) :
    ∀ t ∈ ts, t.kind ≠ .eof := by
  cases empty <;> simp_all

/-- The tokens are all that is still to be taken before the braces. -/
inductive Stage.Leads : Stage → List Token → Prop where
  | braces : Leads .braces []
  | arrow {arrow : Token} : arrow.kind = .direct → Leads .arrow [arrow]
  | inside {ts us : List Token} {closer : Token} : Nested ts → closer.kind = .parClose →
      Leads .arrow us → Leads .inside (ts ++ closer :: us)
  | header {ts : List Token} {opener : Token} : opener.kind = .parOpen → Leads .inside ts →
      Leads .header (opener :: ts)
  | declaration {ts : List Token} {closer : Token} : (∀ t ∈ ts, t.kind ≠ .greaterThan) →
      closer.kind = .greaterThan → Leads .declaration (ts ++ [closer])

/-- What leads to the braces is told by the kinds. -/
theorem Stage.Leads.congr {stage : Stage} {ts us : List Token} (leads : stage.Leads ts)
    (same : us.map Token.kind = ts.map Token.kind) : stage.Leads us := by
  induction leads generalizing us with
  | braces =>
    rw [List.map_eq_nil_iff.mp same]
    exact .braces
  | arrow points =>
    obtain ⟨_, rfl, kind⟩ := List.map_eq_singleton_iff.mp same
    exact .arrow (kind.trans points)
  | inside nested closes _ ih =>
    rw [List.map_append, List.map_cons] at same
    obtain ⟨ts, _, rfl, inner, rest⟩ := List.map_eq_append_iff.mp same
    obtain ⟨_, us, rfl, kind, rest⟩ := List.map_eq_cons_iff.mp rest
    exact .inside (fun awaited => (nest_congr inner awaited).trans (nested awaited))
      (kind.trans closes) (ih rest)
  | header opens _ ih =>
    obtain ⟨_, us, rfl, kind, rest⟩ := List.map_eq_cons_iff.mp same
    exact .header (kind.trans opens) (ih rest)
  | declaration plain closes =>
    rw [List.map_append, List.map_singleton] at same
    obtain ⟨ts, _, rfl, inner, rest⟩ := List.map_eq_append_iff.mp same
    obtain ⟨_, rfl, kind⟩ := List.map_eq_singleton_iff.mp rest
    refine .declaration (fun t member ends => ?_) (kind.trans closes)
    obtain ⟨u, there, same⟩ := List.mem_map.mp (inner ▸ List.mem_map_of_mem member)
    exact plain u there (same.trans ends)

/-- Two sources with the same tokens but for one empty body. -/
structure Seam where
  first : Nat → Token
  second : Nat → Token
  /-- Where the keyword stands that the body belongs to. -/
  opens : Nat
  stage : Stage
  lead : List Token
  braces : List Token
  braces' : List Token
  keyword : (first opens).kind.stage? = some stage
  leads : stage.Leads lead
  empty : EmptyBraces braces
  empty' : EmptyBraces braces'
  lies : Lies first (opens + 1) (lead ++ braces)
  lies' : Lies second (opens + 1 + lead.length) braces'
  before : ∀ i < opens + 1 + lead.length, second i = first i
  after : ∀ n, second (opens + 1 + lead.length + braces'.length + n) =
    first (opens + 1 + lead.length + braces.length + n)
  stop : Nat
  ends : EndsAt first stop

namespace Seam

variable {α : Type} (x : Seam) {i j depth : Nat} {start start' : Point} {c c' d : Cursor} {a : α}
  {p : Parse α} {stage : Stage}

/-- Where the braces stand. -/
def place : Nat := x.opens + 1 + x.lead.length

/-- What is still to be taken leads from here to the braces. -/
def Stands (stage : Stage) (i : Nat) : Prop :=
  ∃ lead, stage.Leads lead ∧ Lies x.first i lead ∧ i + lead.length = x.place

/-- Cursors behind the braces, at the same token. -/
def Past (c c' : Cursor) : Prop :=
  ∃ n, Level x.first x.second (x.place + x.braces.length + n) (x.place + x.braces'.length + n) c c'

/-- Cursors at the same token, before the keyword was taken or behind the braces. -/
def Beside (c c' : Cursor) : Prop :=
  (∃ i ≤ x.opens, Level x.first x.second i i c c') ∨ x.Past c c'

variable {x}

theorem stands : x.Stands x.stage (x.opens + 1) :=
  ⟨x.lead, x.leads, (lies_append.mp x.lies).1, rfl⟩

theorem lies_braces : Lies x.first x.place x.braces := (lies_append.mp x.lies).2

theorem same_past (x : Seam) (n : Nat) :
    x.second (x.place + x.braces'.length + n) = x.first (x.place + x.braces.length + n) :=
  x.after n

theorem opens_lt : x.opens < x.place := by
  rw [place]
  omega

theorem place_lt : x.place < x.stop := by
  refine x.ends.lt ?_
  have lies := lies_braces (x := x)
  cases empty : x.braces with
  | nil => exact absurd (empty ▸ x.empty) nofun
  | cons t ts =>
    rw [empty, lies_cons] at lies
    exact lies.1 ▸ x.empty.ne_eof t (empty ▸ List.mem_cons_self)

/-- A run ahead of blunt tokens before the braces. -/
@[simps short size]
def verge (x : Seam) (l : Nat) (before : l < x.place) (blunt : (x.first l).kind.isBlunt = true) :
    Verge where
  short := x.first
  long := x.second
  size := l
  common i inside := x.before i (Nat.lt_trans inside before)
  same := x.before l before
  blunt := blunt
  stop := x.stop
  ends := x.ends

/-! On the way to the braces. -/

theorem Stands.lt (stands : x.Stands stage i) (more : stage ≠ .braces) : i < x.place := by
  obtain ⟨lead, leads, -, place⟩ := stands
  have : lead ≠ [] := by cases leads <;> simp_all
  have := List.length_pos_iff.mpr this
  omega

theorem Stands.braces (stands : x.Stands .braces i) : i = x.place := by
  obtain ⟨_, leads, -, place⟩ := stands
  cases leads
  exact place

theorem Stands.arrow (stands : x.Stands .arrow i) :
    (x.first i).kind = .direct ∧ x.Stands .braces (i + 1) := by
  obtain ⟨_, leads, lies, place⟩ := stands
  cases leads with | arrow points
  rw [lies_cons] at lies
  exact ⟨lies.1 ▸ points, [], .braces, nofun, place⟩

theorem Stands.header (stands : x.Stands .header i) :
    (x.first i).kind = .parOpen ∧ x.Stands .inside (i + 1) := by
  obtain ⟨_, leads, lies, place⟩ := stands
  cases leads with | header opens leads
  rw [lies_cons] at lies
  refine ⟨lies.1 ▸ opens, _, leads, lies.2, ?_⟩
  rw [← place, List.length_cons]
  omega

/-- Parentheses that are closed here lead to the arrow. -/
theorem Stands.close (stands : x.Stands .inside i) (closes : (x.first i).kind = .parClose) :
    x.Stands .arrow (i + 1) := by
  obtain ⟨_, leads, lies, place⟩ := stands
  cases leads with | @inside ts us closer nested _ leads
  cases ts with
  | nil =>
    rw [List.nil_append] at lies place
    refine ⟨us, leads, (lies_cons.mp lies).2, ?_⟩
    rw [← place, List.length_cons]
    omega
  | cons t ts =>
    rw [List.cons_append, lies_cons] at lies
    exact absurd nested (@Nested.not_close [] _ _ (nested_of_inner nofun) (lies.1 ▸ closes))

/-- A declaration that comes to its end here is followed by the braces. -/
theorem Stands.finish (stands : x.Stands .declaration i)
    (ends : (x.first i).kind = .greaterThan) : x.Stands .braces (i + 1) := by
  obtain ⟨_, leads, lies, place⟩ := stands
  cases leads with | @declaration ts closer plain _
  cases ts with
  | nil => exact ⟨[], .braces, nofun, place⟩
  | cons t ts =>
    rw [List.cons_append, lies_cons] at lies
    exact absurd (lies.1 ▸ ends) (plain t List.mem_cons_self)

/-- Such tokens go up to a blunt token before the braces at most, and leave the run where it is on
the way to these. -/
def Fenced (x : Seam) (P : List Token → Prop) (stage : Stage) (i : Nat) : Prop :=
  ∃ l, l < x.place ∧ (x.first l).kind.isBlunt = true ∧ ∀ ts, P ts → Lies x.first i ts →
    i + ts.length ≤ l ∧ x.Stands stage (i + ts.length)

theorem Stands.inside (stands : x.Stands .inside i) : x.Fenced Nested .inside i := by
  obtain ⟨_, leads, lies, place⟩ := stands
  cases leads with | @inside us vs closer nested closes leads
  rw [List.length_append, List.length_cons] at place
  refine ⟨i + us.length, by omega, ?_, fun ts nested' lies' => ?_⟩
  · rw [(lies_cons.mp (lies_append.mp lies).2).1, closes]
    rfl
  obtain ⟨rest, rfl⟩ := lies.exists_append lies' fun rest same =>
    nested.not_close closes (same ▸ nested')
  rw [List.append_assoc, lies_append] at lies
  rw [List.length_append] at place ⊢
  refine ⟨by omega, _, .inside (nested'.of_append nested) closes leads, lies.2, ?_⟩
  rw [List.length_append, List.length_cons]
  omega

theorem Stands.declaration (stands : x.Stands .declaration i) :
    x.Fenced (∀ t ∈ ·, t.kind ≠ .greaterThan) .declaration i := by
  obtain ⟨_, leads, lies, place⟩ := stands
  cases leads with | @declaration us closer plain closes
  rw [List.length_append, List.length_singleton] at place
  refine ⟨i + us.length, by omega, ?_, fun ts plain' lies' => ?_⟩
  · rw [(lies_cons.mp (lies_append.mp lies).2).1, closes]
    rfl
  obtain ⟨rest, rfl⟩ := lies.exists_append lies' fun rest same =>
    plain' closer (by simp [same]) closes
  rw [List.append_assoc, lies_append] at lies
  rw [List.length_append] at place ⊢
  have plain'' := fun t member => plain t (List.mem_append_right ts member)
  refine ⟨by omega, _, .declaration plain'' closes, lies.2, ?_⟩
  rw [List.length_append, List.length_singleton]
  omega

/-! Behind the braces. -/

/-- Calls that nest up to the depth go on behind the braces. -/
def PastRules (x : Seam) (depth : Nat) : Prop :=
  ∀ {y : Yield} (rule : Rule y) (c c' d : Cursor) (v : y.Value), x.Past c c' →
    rule.run depth c = some (.ok v, d) →
    ∃ d', rule.run depth c' = some (.ok v, d') ∧ x.Past d d'

theorem PastRules.exec (rules : x.PastRules depth) (past : x.Past c c')
    (ran : p.exec (Rule.run depth) start c = some (.ok a, d)) :
    ∃ d', p.exec (Rule.run depth) start' c' = some (.ok a, d') ∧ x.Past d d' := by
  induction p generalizing c c' with
  | done b =>
    cases ran
    exact ⟨c', rfl, past⟩
  | fail blame fault => cases blame <;> cases ran
  | step action next ih =>
    obtain ⟨answer, e, acted, later⟩ := Parse.exec_step_ok.mp ran
    suffices ∃ e', Parse.act (Rule.run depth) action c' = some (.ok answer, e') ∧ x.Past e e' by
      obtain ⟨e', acted', past⟩ := this
      obtain ⟨d', later', final⟩ := ih answer past later
      exact ⟨d', Parse.exec_step_ok.mpr ⟨answer, e', acted', later'⟩, final⟩
    obtain ⟨n, level⟩ := past
    by_cases still : action.isStill = true
    · obtain ⟨e', acted', after⟩ := level.act_still still (fun _ => by rw [x.same_past]) acted
      exact ⟨e', acted', n, after⟩
    cases action with
    | peek distance =>
      have same := x.same_past (n + distance)
      rw [← Nat.add_assoc, ← Nat.add_assoc] at same
      obtain ⟨e', acted', after⟩ := level.act_peek (congrArg Token.kind same) acted
      exact ⟨e', acted', n, after⟩
    | shift =>
      obtain ⟨e', acted', after⟩ := level.act_shift (x.same_past n) acted
      exact ⟨e', acted', n + 1, after⟩
    | call rule => exact rules rule c c' e answer ⟨n, level⟩ acted
    | _ => contradiction

theorem pastRules (x : Seam) (depth : Nat) : x.PastRules depth := by
  induction depth with
  | zero => exact fun _ _ _ _ _ _ ran => nomatch ran
  | succ depth ih => exact fun _ _ _ _ _ past ran => ih.exec past ran

/-- Behind the braces the runs go on at the same token. -/
theorem Past.exec (past : x.Past c c') (start' : Point)
    (ran : p.exec (Rule.run depth) start c = some (.ok a, d)) :
    ∃ d', p.exec (Rule.run depth) start' c' = some (.ok a, d') ∧ x.Past d d' :=
  PastRules.exec (x.pastRules depth) past ran

end Seam
end ScriptSyntax
