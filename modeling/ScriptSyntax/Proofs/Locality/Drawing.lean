import ScriptSyntax.Program
import ScriptSyntax.Proofs.Calls.Supply
import ScriptSyntax.Proofs.Program.Faults

/-! What a run draws from its scanner. A run that does not end in a fault of the characters is
settled by the tokens that it reads. It ends the same way wherever these are read. -/
namespace ScriptSyntax

/-- The token that was read, where the event tells of one. -/
def Event.lexed? : Event → Option String
  | lexed token => some token
  | _ => none

namespace Cursor

variable {c d e : Cursor} {s s' : Scanner} {ts us : List Token}

/-- The cursor with another scanner in place of its own. -/
def drawing (c : Cursor) (s : Scanner) : Cursor := { c with scanner := s }

@[simp] theorem scanner_drawing (c : Cursor) (s : Scanner) : (c.drawing s).scanner = s := rfl

/-- The tokens that were read, the last first. -/
def lexed (c : Cursor) : List String := c.journal.filterMap Event.lexed?

/-- The first cursor comes to the second one by reading these tokens, and notes each of them. -/
structure Draws (c : Cursor) (ts : List Token) (d : Cursor) : Prop where
  reads : c.scanner.Emits ts d.scanner
  noted : d.lexed = (ts.map Token.text).reverse ++ c.lexed

theorem Draws.of_still (scanner : d.scanner = c.scanner) (lexed : d.lexed = c.lexed) :
    c.Draws [] d :=
  ⟨scanner ▸ .nil, lexed⟩

theorem Draws.trans (first : c.Draws ts d) (second : d.Draws us e) : c.Draws (ts ++ us) e :=
  ⟨first.reads.append second.reads, by
    rw [second.noted, first.noted, List.map_append, List.reverse_append, List.append_assoc]⟩

theorem regroup_drawing (c : Cursor) (s : Scanner) (id : NodeId) :
    (c.drawing s).regroup id = ((c.regroup id).1, (c.regroup id).2.drawing s) := by
  rw [regroup_eq, regroup_eq]
  rfl

theorem lexed_regroup (c : Cursor) (id : NodeId) : (c.regroup id).2.lexed = c.lexed := by
  have none (rs : List Rotation) :
      (rs.map Event.rotated).reverse.filterMap Event.lexed? = [] := by
    rw [List.filterMap_eq_nil_iff]
    intro e member
    obtain ⟨r, -, rfl⟩ := List.mem_map.mp (List.mem_reverse.mp member)
    rfl
  rw [regroup_eq, lexed, List.filterMap_append, none, List.nil_append, lexed]

end Cursor

open Cursor (Outcome)

variable {α β : Type} {c d e : Cursor} {r : Except Error α} {a : α} {depth distance : Nat}
  {start : Point}

/-- The outcome is no fault of the characters. -/
def Legible (r : Except Error α) : Prop :=
  ∀ e, r = .error e → e.fault.faultClass = .syntactic

theorem legible_ok (a : α) : Legible (.ok a) := nofun

/-- The run from the cursor reads some tokens and comes to its end. In the same file, wherever these
tokens are read, it comes to the same end. -/
def Fixed (run : Cursor → Option (Outcome α)) (c : Cursor) (r : Except Error α) (d : Cursor) :
    Prop :=
  ∃ ts, c.Draws ts d ∧ ∀ s s', s.file = c.scanner.file → s.Emits ts s' →
    run (c.drawing s) = some (r, d.drawing s')

namespace Fixed

variable {run : Cursor → Option (Outcome α)}

/-- A run that leaves the scanner alone. -/
theorem of_still (scanner : d.scanner = c.scanner) (lexed : d.lexed = c.lexed)
    (ran : ∀ s, s.file = c.scanner.file → run (c.drawing s) = some (r, d.drawing s)) :
    Fixed run c r d := by
  refine ⟨[], .of_still scanner lexed, fun s s' file reads => ?_⟩
  cases reads
  exact ran s file

/-- A run that goes on as another one does, once a first one is through. -/
theorem bind {first : Cursor → Option (Outcome β)} {b : β} (begun : Fixed first c (.ok b) d)
    (rest : Cursor → Option (Outcome α)) (ended : Fixed rest d r e)
    (goes : ∀ s s', first (c.drawing s) = some (.ok b, d.drawing s') →
      run (c.drawing s) = rest (d.drawing s')) : Fixed run c r e := by
  obtain ⟨ts, draws, again⟩ := begun
  obtain ⟨us, draws', again'⟩ := ended
  refine ⟨ts ++ us, draws.trans draws', fun s s' file reads => ?_⟩
  obtain ⟨middle, reads, reads'⟩ := reads.exists_of_append
  have same : middle.file = d.scanner.file := by rw [reads.file, file, draws.reads.file]
  rw [goes s middle (again s middle file reads)]
  exact again' middle s' same reads'

end Fixed

namespace Cursor

theorem fixed_pull {t : Token} (pulled : c.pull = (.ok t, d)) :
    Fixed (fun c => some c.pull) c (.ok t) d := by
  rw [pull] at pulled
  split at pulled
  · next u s read =>
    cases pulled
    refine ⟨[t], ⟨.cons read .nil, rfl⟩, fun s' s'' _ reads => ?_⟩
    cases reads with
    | cons again later =>
      cases later
      simp only [pull, scanner_drawing, again]
      rfl
  · cases pulled

theorem fixed_fill {n : Nat} (filled : c.fill n = (.ok (), d)) :
    Fixed (fun c => some (c.fill n)) c (.ok ()) d := by
  induction n generalizing c with
  | zero =>
    cases filled
    exact .of_still rfl rfl fun _ _ => rfl
  | succ n ih =>
    rw [fill] at filled
    split at filled
    · next t e pulled =>
      obtain ⟨ts, draws, again⟩ := ih filled
      refine (fixed_pull pulled).bind
        (fun e => some (fill n { e with pending := e.pending ++ [t] }))
        ⟨ts, ⟨draws.reads, draws.noted⟩, again⟩ fun s s' pulled => ?_
      simp only [Option.some.injEq] at pulled
      simp only [fill, pulled]
    · cases filled

theorem fixed_shift {t : Token} (shifted : c.shift = (.ok t, d)) :
    Fixed (fun c => some c.shift) c (.ok t) d := by
  rcases pending : c.pending with - | ⟨u, rest⟩
  · simp only [shift, pending] at shifted
    split at shifted
    · next u e pulled =>
      cases shifted
      refine (fixed_pull pulled).bind (fun e => some (.ok e.current, { e with current := u }))
        (.of_still rfl rfl fun _ _ => rfl) fun s s' pulled => ?_
      simp only [Option.some.injEq] at pulled
      have none : (c.drawing s).pending = [] := pending
      simp only [shift, none, pulled]
    · cases shifted
  · simp only [shift, pending] at shifted
    cases shifted
    refine .of_still rfl rfl fun s _ => ?_
    have more : (c.drawing s).pending = u :: rest := pending
    simp only [shift, more]
    rfl

theorem fixed_peek {r : Except Error Token} (clean : Legible r)
    (peeked : c.peek distance = (r, d)) : Fixed (fun c => some (c.peek distance)) c r d := by
  by_cases outside : distance = 0 ∨ maxLookahead < distance
  · rw [peek, if_pos outside] at peeked
    cases peeked
    refine .of_still rfl rfl fun s file => ?_
    rw [peek, if_pos outside]
    simp only [error, errorAt, scanner_drawing, file]
    rfl
  · rw [peek, if_neg outside] at peeked
    split at peeked
    · next e filled =>
      cases peeked
      refine (fixed_fill filled).bind
        (fun e => some (.ok (e.pending.getD (distance - 1) e.current), e))
        (.of_still rfl rfl fun _ _ => rfl) fun s s' filled => ?_
      simp only [Option.some.injEq] at filled
      have filled : fill (distance - (c.drawing s).pending.length) (c.drawing s) = _ := filled
      simp only [peek, if_neg outside, filled]
    · next f e filled =>
      cases peeked
      obtain ⟨ts, s, -, stuck⟩ := fill_error filled
      have := (Scanner.next_error stuck).symm.trans (clean f rfl)
      contradiction

end Cursor

/-- Rules that calls nest under up to the depth are settled by what they read. -/
def FixedRules (depth : Nat) : Prop :=
  ∀ {y : Yield} (rule : Rule y) (c d : Cursor) (r : Except Error y.Value), Legible r →
    rule.run depth c = some (r, d) → Fixed (rule.run depth) c r d

theorem Parse.fixed_act (rules : FixedRules depth) {action : Action}
    {r : Except Error action.Answer} (clean : Legible r)
    (acted : act (Rule.run depth) action c = some (r, d)) :
    Fixed (act (Rule.run depth) action) c r d := by
  cases action with
  | peek distance =>
    rcases peeked : c.peek distance with ⟨r, e⟩
    rw [act, peeked] at acted
    cases acted
    have clean : Legible r := fun e same => clean e (by
      rw [same]
      rfl)
    obtain ⟨ts, draws, again⟩ := Cursor.fixed_peek clean peeked
    refine ⟨ts, draws, fun s s' file reads => ?_⟩
    rw [act, Option.some.inj (again s s' file reads)]
    rfl
  | shift =>
    rcases r with f | t
    · have stuck := Scanner.next_error (Cursor.shift_error (Option.some.inj acted))
      have := stuck.symm.trans (clean f rfl)
      contradiction
    · exact Cursor.fixed_shift (Option.some.inj acted)
  | call rule => exact rules rule c d r clean acted
  | settle id =>
    obtain ⟨rfl, rfl⟩ : .ok (c.regroup id).1 = r ∧
        (c.regroup id).2.freeze (c.regroup id).1 = d := by
      simpa [act] using acted
    refine .of_still (c.regroup_keeps id).2.2.1 (c.lexed_regroup id) fun s _ => ?_
    rw [act, Cursor.regroup_drawing]
    rfl
  | _ =>
    cases acted
    exact .of_still rfl rfl fun _ _ => rfl

theorem Parse.fixed_exec (rules : FixedRules depth) {p : Parse α} (clean : Legible r)
    (ran : p.exec (Rule.run depth) start c = some (r, d)) :
    Fixed (p.exec (Rule.run depth) start) c r d := by
  induction p generalizing c with
  | done b =>
    cases ran
    exact .of_still rfl rfl fun _ _ => rfl
  | fail blame fault =>
    cases blame <;> cases ran <;> refine .of_still rfl rfl fun s file => ?_ <;>
      simp only [exec, Cursor.error, Cursor.errorAt, Cursor.scanner_drawing, file] <;> rfl
  | step action next ih =>
    rw [exec] at ran
    split at ran
    · next answer e acted =>
      refine (fixed_act rules (legible_ok answer) acted).bind _ (ih answer ran)
        fun s s' acted => ?_
      rw [exec, acted]
    · next f e acted =>
      cases ran
      have clean : Legible (.error f : Except Error action.Answer) := fun e same => clean e (by
        cases same
        rfl)
      obtain ⟨ts, draws, again⟩ := fixed_act rules clean acted
      refine ⟨ts, draws, fun s s' file reads => ?_⟩
      rw [exec, again s s' file reads]
    · cases ran

theorem fixedRules (depth : Nat) : FixedRules depth := by
  induction depth with
  | zero => exact fun _ _ _ _ _ => nofun
  | succ depth ih => exact fun rule c d r clean ran => Parse.fixed_exec ih clean ran

/-- A parse that is run at a cursor ends the same way in the same place of any source of the file,
where the tokens that it read follow. -/
theorem Cursor.fixed_run {p : Parse α} {post : α → Bool → Kind → Prop}
    (walk : p.Proceeds 4 false c.current.kind post) (clean : Legible r) (ran : c.run p = (r, d)) :
    ∃ ts, c.Draws ts d ∧ ∀ s' s'', s'.file = c.scanner.file → s'.Emits ts s'' →
      (c.drawing s').run p = (r, d.drawing s'') := by
  obtain ⟨ts, draws, again⟩ := Parse.fixed_exec (fixedRules c.depth) clean
    ((exec_eq_run walk (Nat.le_refl c.depth)).trans (congrArg some ran))
  refine ⟨ts, draws, fun s' s'' file reads => ?_⟩
  have whole : p.exec (Rule.run (max c.depth (c.drawing s').depth)) c.point (c.drawing s') =
      some ((c.drawing s').run p) := exec_eq_run (c := c.drawing s') walk (Nat.le_max_right ..)
  exact Option.some.inj
    (whole.symm.trans (Parse.exec_of_le (Nat.le_max_left ..) (again s' s'' file reads)))

variable {source : String} {file : Option String} {events : List Event} {f : Error}

/-- A cursor starts on the first token of its source. -/
theorem Cursor.start_eq (started : Cursor.start source file = .ok c) :
    ∃ t s, (Scanner.ofText source file).next = (.ok t, s) ∧
      c = ⟨s, t, [], .empty, [.lexed t.text]⟩ := by
  rw [Cursor.start] at started
  split at started
  · next t s read =>
    cases started
    exact ⟨t, s, read, rfl⟩
  · cases started

/-- A parse that ends in an error of the order of its tokens ends in it, with the same events, on
every source of the file that begins with the tokens that were read. -/
theorem parseTraced_of_error (failed : parseTraced source file = (events, .error f))
    (syntactic : f.fault.faultClass = .syntactic) :
    ∃ ts s, (Scanner.ofText source file).Emits ts s ∧
      events.filterMap Event.lexed? = ts.map Token.text ∧
      ∀ source' file' s', file'.getD defaultFile = file.getD defaultFile →
        (Scanner.ofText source' file').Emits ts s' →
          parseTraced source' file' = (events, .error f) := by
  rw [parseTraced] at failed
  split at failed
  · next e started =>
    cases failed
    rw [Cursor.start] at started
    split at started
    · cases started
    · next stuck =>
      cases started
      have := (Scanner.next_error stuck).symm.trans syntactic
      contradiction
  next c started =>
  obtain ⟨t, s, read, same⟩ := Cursor.start_eq started
  split at failed
  · cases failed
  next g d program =>
  cases failed
  have ran : c.run (Grammar.block [.eof]) = (.error f, d) := by
    rw [Cursor.program] at program
    split at program
    · cases program
    · next ran =>
      cases program
      exact ran
  have clean : Legible (.error f : Except Error NodeId) := fun g eq => by
    cases eq
    exact syntactic
  obtain ⟨ts, draws, again⟩ := Cursor.fixed_run (block_proceeds [.eof] _) clean ran
  refine ⟨t :: ts, d.scanner, ?_, ?_, fun source' file' s' named reads => ?_⟩
  · exact .cons read (by simpa only [same] using draws.reads)
  · have lexed : c.lexed = [t.text] := by
      rw [same]
      rfl
    rw [List.filterMap_reverse, ← Cursor.lexed, draws.noted, lexed, List.reverse_append,
      List.reverse_reverse]
    rfl
  · cases reads with
    | @cons _ s'' _ _ _ read' reads =>
      have started' : Cursor.start source' file' = .ok (c.drawing s'') := by
        rw [Cursor.start, read', same]
        rfl
      have file : s''.file = c.scanner.file := by
        rw [Scanner.file_of_next read', same, Scanner.file_of_next read]
        exact named
      have ran' := again s'' s' file reads
      rw [parseTraced, started']
      simp only [Cursor.program, ran']
      rfl

end ScriptSyntax
