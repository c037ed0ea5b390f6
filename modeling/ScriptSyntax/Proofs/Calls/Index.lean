import ScriptSyntax.Proofs.Calls.Supply
import ScriptSyntax.Proofs.Progress.Pull

/-! The cursor as an index. Whatever is asked of a cursor, it answers as a number would that counts
the tokens of the source, as far as they can be read. -/
namespace ScriptSyntax

/-- What may be asked of a cursor. -/
inductive Call where
  | current
  | is (kind : Kind)
  | isAny (kinds : List Kind)
  | peek (depth : Nat)
  | peekKind (depth : Nat)
  | advance
  | eat (kind : Kind)
  | eatAny (kinds : List Kind)

inductive Answer where
  | token (t : Token)
  | kind (k : Kind)
  | flag (holds : Bool)

/-- The answer of a cursor, and the cursor after it. -/
def Cursor.answer (c : Cursor) : Call → Cursor.Outcome Answer
  | .current => (.ok (.token c.current), c)
  | .is kind => (c.run (Parse.isAt kind)).map (·.map .flag) id
  | .isAny kinds => (c.run (Parse.isAtAny kinds)).map (·.map .flag) id
  | .peek depth => (c.peek depth).map (·.map .token) id
  | .peekKind depth => (c.run (Parse.peek depth)).map (·.map .kind) id
  | .advance => c.shift.map (·.map .token) id
  | .eat kind => (c.run (Parse.expect kind)).map (·.map .token) id
  | .eatAny kinds => (c.run (Parse.expectAny kinds)).map (·.map .token) id

/-- An index into what a source has at its places. -/
structure Index where
  file : String
  tokens : Nat → Except Error Token
  place : Nat

namespace Index

/-- The error of a fault at a token. -/
def refuse (x : Index) (now : Token) (fault : Fault) : Except Error Answer × Index :=
  (.error ⟨fault, now.span.start, x.file⟩, x)

/-- Makes an answer of the token so many places ahead. -/
def ahead (x : Index) (now : Token) (depth : Nat) (f : Token → Answer) :
    Except Error Answer × Index :=
  if 1 ≤ depth ∧ depth ≤ maxLookahead then ((x.tokens (x.place + depth)).map f, x)
  else x.refuse now (.lookaheadExceeded depth)

/-- Moves on by one place, if something can be read there. -/
def move (x : Index) (now : Token) : Except Error Answer × Index :=
  match x.tokens (x.place + 1) with
  | .ok _ => (.ok (.token now), { x with place := x.place + 1 })
  | .error e => (.error e, x)

/-- The answer at an index, and the index after it. -/
def answer (x : Index) (call : Call) : Except Error Answer × Index :=
  match x.tokens x.place with
  | .error e => (.error e, x)
  | .ok now =>
    match call with
    | .current => (.ok (.token now), x)
    | .is kind => (.ok (.flag (now.kind = kind)), x)
    | .isAny kinds => (.ok (.flag (kinds.contains now.kind)), x)
    | .peek depth => x.ahead now depth .token
    | .peekKind depth => x.ahead now depth (.kind ·.kind)
    | .advance => x.move now
    | .eat kind =>
      if now.kind = kind then x.move now
      else x.refuse now (.expectedToken kind.name now.text)
    | .eatAny kinds =>
      if kinds.contains now.kind then x.move now
      else x.refuse now (.expectedToken (" | ".intercalate (kinds.map Kind.name)) now.text)

end Index

/-- Whether the answer is an error of the characters. -/
def breaks : Except Error Answer → Bool
  | .ok _ => false
  | .error e => e.fault.faultClass = .lexical

/-- Makes the calls one after the other, through the first that meets an error of the characters,
and gives all answers. -/
def answers {σ : Type} (answer : σ → Call → Except Error Answer × σ) :
    List Call → σ → List (Except Error Answer) × σ
  | [], s => ([], s)
  | call :: calls, s =>
    let (r, s) := answer s call
    if breaks r then ([r], s)
    else
      let (rs, s) := answers answer calls s
      (r :: rs, s)

/-- The cursor stands at the index, and what it read ahead is what comes next. -/
structure Cursor.StandsAt (c : Cursor) (x : Index) : Prop where
  current : x.tokens x.place = .ok c.current
  pending : ∀ (j : Nat) (h : j < c.pending.length), x.tokens (x.place + 1 + j) = .ok c.pending[j]
  few : c.pending.length ≤ maxLookahead

/-- The cursor stands at the index, and its scanner goes on from what is read ahead. -/
structure Cursor.Tracks (c : Cursor) (x : Index) : Prop extends c.StandsAt x where
  later : c.scanner.Draws x.tokens (x.place + 1 + c.pending.length)
  file : c.scanner.file = x.file

/-- What a cursor gave, and where it stands after it, is what an index gives. The calls leave the
arena as it is. -/
structure Cursor.Meets {α : Type} (c : Cursor) (outcome : α × Cursor) (expected : α × Index) :
    Prop where
  same : outcome.1 = expected.1
  stands : outcome.2.StandsAt expected.2
  arena : outcome.2.arena = c.arena

/-- What a cursor gave at one call is what an index gives, and the cursor can be asked again unless
it met an error of the characters. -/
structure Cursor.Matches (c : Cursor) (outcome : Cursor.Outcome Answer)
    (expected : Except Error Answer × Index) : Prop extends c.Meets outcome expected where
  tracks : breaks expected.1 = false → outcome.2.Tracks expected.2

namespace Cursor

variable {c c' : Cursor} {x : Index} {e : Error} {t : Token} {n : Nat}

theorem run_shift_if (c : Cursor) (met : Bool) (fault : String → Fault) :
    c.run (if met then Parse.shift else Parse.fail .here fault) =
      if met then c.shift else (.error (c.error (fault c.current.text)), c) := by
  cases met with
  | false => rfl
  | true =>
    simp only [run, Parse.shift, Parse.perform, Parse.exec, Parse.act, if_true]
    rcases c.shift with ⟨e | t, d⟩ <;> rfl

theorem run_expect (c : Cursor) (kind : Kind) : c.run (Parse.expect kind) =
    if c.current.kind = kind then c.shift
    else (.error (c.error (.expectedToken kind.name c.current.text)), c) := by
  refine (c.run_shift_if (c.current.kind = kind) (.expectedToken kind.name)).trans ?_
  simp only [decide_eq_true_eq]

theorem run_expectAny (c : Cursor) (kinds : List Kind) : c.run (Parse.expectAny kinds) =
    if kinds.contains c.current.kind then c.shift
    else (.error (c.error (.expectedToken (" | ".intercalate (kinds.map Kind.name))
      c.current.text)), c) :=
  c.run_shift_if (kinds.contains c.current.kind)
    (.expectedToken (" | ".intercalate (kinds.map Kind.name)))

theorem run_peek (c : Cursor) (depth : Nat) :
    c.run (Parse.peek depth) = (c.peek depth).map (·.map Token.kind) id := by
  simp only [run, Parse.peek, Parse.perform, Parse.exec, Parse.act]
  rcases c.peek depth with ⟨e | t, d⟩ <;> rfl

theorem pull_error_keeps (pulled : c.pull = (.error e, c')) :
    c'.current = c.current ∧ c'.pending = c.pending ∧ c'.arena = c.arena := by
  simp only [pull] at pulled
  split at pulled <;> cases pulled
  exact ⟨rfl, rfl, rfl⟩

/-- A move that fails changes nothing but the scanner. -/
theorem shift_error_keeps (failed : c.shift = (.error e, c')) :
    c'.current = c.current ∧ c'.pending = c.pending ∧ c'.arena = c.arena := by
  simp only [shift] at failed
  split at failed
  · cases failed
  · split at failed
    · cases failed
    · next pulled =>
      cases failed
      exact pull_error_keeps pulled

theorem StandsAt.congr (stands : c.StandsAt x) (current : c'.current = c.current)
    (pending : c'.pending = c.pending) : c'.StandsAt x := by
  obtain ⟨here, next, few⟩ := stands
  refine ⟨current ▸ here, ?_, pending ▸ few⟩
  rw [pending]
  exact next

/-- A token that is read goes behind those that are pending. -/
theorem Tracks.pull_ok (tracks : c.Tracks x) (pulled : c.pull = (.ok t, c'))
    (room : c.pending.length < maxLookahead) :
    Tracks { c' with pending := c'.pending ++ [t] } x := by
  obtain ⟨read, current, pending, -⟩ := Cursor.pull_ok pulled
  obtain ⟨here, later⟩ := tracks.later.ok read
  refine ⟨⟨current ▸ tracks.current, fun j h => ?_, ?_⟩, ?_,
    (Scanner.file_of_next (Cursor.pull_ok pulled).1).trans tracks.file⟩
  · simp only [pending] at h ⊢
    rw [List.getElem_append]
    split
    · next inside => exact tracks.pending j inside
    · next outside =>
      have last : j = c.pending.length := by
        rw [List.length_append, List.length_singleton] at h
        omega
      simp [last, here]
  · simp only [pending, List.length_append, List.length_singleton]
    omega
  · simpa only [pending, List.length_append, List.length_singleton, Nat.add_assoc] using later

theorem Tracks.fill_ok (tracks : c.Tracks x) (filled : c.fill n = (.ok (), c'))
    (room : c.pending.length + n ≤ maxLookahead) :
    c'.Tracks x ∧ c'.pending.length = c.pending.length + n := by
  induction n generalizing c with
  | zero =>
    cases filled
    exact ⟨tracks, rfl⟩
  | succ n ih =>
    simp only [fill] at filled
    split at filled
    · next t d pulled =>
      have pending := congrArg List.length (Cursor.pull_ok pulled).2.2.1
      obtain ⟨after, length⟩ := ih (tracks.pull_ok pulled (by omega)) filled (by
        simp only [List.length_append, List.length_singleton]
        omega)
      refine ⟨after, ?_⟩
      simp only [List.length_append, List.length_singleton] at length
      omega
    · cases filled

/-- Where reading ahead fails, nothing is to be had from the last of the places on. -/
theorem Tracks.fill_error (tracks : c.Tracks x) (failed : c.fill n = (.error e, c'))
    (room : c.pending.length + n ≤ maxLookahead) :
    c'.StandsAt x ∧ c'.arena = c.arena ∧
      ∀ m, c.pending.length + n ≤ m → x.tokens (x.place + m) = .error e := by
  induction n generalizing c with
  | zero => cases failed
  | succ n ih =>
    simp only [fill] at failed
    split at failed
    · next t d pulled =>
      obtain ⟨-, -, pending, arena⟩ := Cursor.pull_ok pulled
      have length := congrArg List.length pending
      obtain ⟨stands, kept, none⟩ := ih (tracks.pull_ok pulled (by omega)) failed (by
        simp only [List.length_append, List.length_singleton]
        omega)
      refine ⟨stands, kept.trans arena, fun m past => none m ?_⟩
      simp only [List.length_append, List.length_singleton]
      omega
    · next d stuck =>
      cases failed
      obtain ⟨current, pending, arena⟩ := pull_error_keeps stuck
      refine ⟨tracks.toStandsAt.congr current pending, arena, fun m past => ?_⟩
      have none := tracks.later.error (pull_error stuck) (m - (c.pending.length + 1))
      rwa [show x.place + 1 + c.pending.length + (m - (c.pending.length + 1)) = x.place + m by
        omega] at none

theorem Tracks.shift_ok (tracks : c.Tracks x) (shifted : c.shift = (.ok t, c')) :
    t = c.current ∧ x.tokens (x.place + 1) = .ok c'.current ∧
      c'.Tracks { x with place := x.place + 1 } ∧ c'.arena = c.arena := by
  simp only [shift] at shifted
  split at shifted
  · next u rest pending =>
    cases shifted
    have next : x.tokens (x.place + 1) = .ok u := by
      simpa [pending] using tracks.pending 0 (by simp [pending])
    refine ⟨rfl, next, ⟨⟨next, fun j h => ?_, ?_⟩, ?_, tracks.file⟩, rfl⟩
    · have following := tracks.pending (j + 1) (by simpa [pending] using h)
      simpa only [pending, List.getElem_cons_succ, Nat.add_assoc, Nat.add_comm 1 j]
        using following
    · have few := tracks.few
      rw [pending] at few
      exact Nat.le_of_succ_le few
    · simpa only [pending, List.length_cons, Nat.add_assoc, Nat.add_comm 1] using tracks.later
  · next pending =>
    split at shifted
    · next u d pulled =>
      cases shifted
      obtain ⟨read, current, none, arena⟩ := Cursor.pull_ok pulled
      obtain ⟨next, later⟩ := tracks.later.ok read
      simp only [pending, List.length_nil, Nat.add_zero] at next later none
      refine ⟨current, next, ⟨⟨next, fun j h => ?_, ?_⟩, ?_,
        (Scanner.file_of_next (Cursor.pull_ok pulled).1).trans tracks.file⟩, arena⟩
      · simp [none] at h
      · simp [none]
      · simpa only [none, List.length_nil, Nat.add_zero] using later
    · cases shifted

theorem Tracks.shift_error (tracks : c.Tracks x) (failed : c.shift = (.error e, c')) :
    x.tokens (x.place + 1) = .error e := by
  simp only [shift] at failed
  split at failed
  · cases failed
  · next pending =>
    split at failed
    · cases failed
    · next stuck =>
      cases failed
      simpa [pending] using tracks.later.error (pull_error stuck) 0

theorem Tracks.refuse (tracks : c.Tracks x) (fault : Fault) :
    c.Matches (.error (c.error fault), c) (x.refuse c.current fault) where
  same := by
    rw [error, errorAt, point, tracks.file]
    rfl
  stands := tracks.toStandsAt
  arena := rfl
  tracks _ := tracks

theorem Tracks.move (tracks : c.Tracks x) :
    c.Matches (c.shift.map (·.map .token) id) (x.move c.current) := by
  rcases shifted : c.shift with ⟨e | t, c'⟩
  · obtain ⟨current, pending, arena⟩ := shift_error_keeps shifted
    have lexical := Scanner.next_error (Cursor.shift_error shifted)
    rw [Index.move, tracks.shift_error shifted]
    exact ⟨⟨rfl, tracks.toStandsAt.congr current pending, arena⟩, by simp [breaks, lexical]⟩
  · obtain ⟨rfl, next, after, arena⟩ := tracks.shift_ok shifted
    rw [Index.move, next]
    exact ⟨⟨rfl, after.toStandsAt, arena⟩, fun _ => after⟩

theorem Tracks.ahead (tracks : c.Tracks x) (depth : Nat) (f : Token → Answer) :
    c.Matches ((c.peek depth).map (·.map f) id) (x.ahead c.current depth f) := by
  by_cases within : 1 ≤ depth ∧ depth ≤ maxLookahead
  · have few := tracks.few
    rw [Index.ahead, if_pos within, peek, if_neg (by omega)]
    rcases filled : c.fill (depth - c.pending.length) with ⟨e | ⟨⟩, c'⟩
    · obtain ⟨stands, arena, none⟩ := tracks.fill_error filled (by omega)
      obtain ⟨ts, s, -, stuck⟩ := Cursor.fill_error filled
      have short : c.pending.length < depth := by
        refine Nat.lt_of_not_le fun enough => ?_
        rw [Nat.sub_eq_zero_of_le enough] at filled
        cases filled
      rw [none depth (by omega)]
      exact ⟨⟨rfl, stands, arena⟩, by simp [breaks, Except.map, Scanner.next_error stuck]⟩
    · obtain ⟨after, length⟩ := tracks.fill_ok filled (by omega)
      obtain ⟨-, -, -, -, arena⟩ := Cursor.fill_ok filled
      have inside : depth - 1 < c'.pending.length := by omega
      have there := after.pending (depth - 1) inside
      rw [show x.place + 1 + (depth - 1) = x.place + depth by omega] at there
      rw [there]
      exact ⟨⟨by simp [Except.map, inside], after.toStandsAt, arena⟩, fun _ => after⟩
  · rw [Index.ahead, if_neg within, peek, if_pos (by omega)]
    exact tracks.refuse (.lookaheadExceeded depth)

/-- What changes neither tokens nor scanner leaves the cursor where it is. -/
theorem Tracks.congr (tracks : c.Tracks x) (scanner : c'.scanner = c.scanner)
    (current : c'.current = c.current) (pending : c'.pending = c.pending) : c'.Tracks x := by
  refine ⟨tracks.toStandsAt.congr current pending, ?_, scanner ▸ tracks.file⟩
  rw [scanner, pending]
  exact tracks.later

/-- A token that is there is found when it is looked at. -/
theorem Tracks.peek {depth : Nat} (tracks : c.Tracks x) (within : 1 ≤ depth ∧ depth ≤ maxLookahead)
    (there : x.tokens (x.place + depth) = .ok t) :
    ∃ d, c.peek depth = (.ok t, d) ∧ d.Tracks x ∧ d.arena = c.arena := by
  have ahead := tracks.ahead depth .token
  rw [Index.ahead, if_pos within, there] at ahead
  have same := ahead.same
  rcases peeked : c.peek depth with ⟨e | u, d⟩ <;> rw [peeked] at ahead same <;> cases same
  exact ⟨d, rfl, ahead.tracks rfl, ahead.arena⟩

/-- A cursor moves on to a token that is there. -/
theorem Tracks.shift (tracks : c.Tracks x) (there : x.tokens (x.place + 1) = .ok t) :
    ∃ d, c.shift = (.ok c.current, d) ∧ d.Tracks { x with place := x.place + 1 } ∧
      d.arena = c.arena := by
  rcases shifted : c.shift with ⟨e | u, d⟩
  · simp [tracks.shift_error shifted] at there
  · obtain ⟨rfl, -, after, arena⟩ := tracks.shift_ok shifted
    exact ⟨d, rfl, after, arena⟩

/-- A call is answered as the index answers it. -/
theorem Tracks.answer (tracks : c.Tracks x) (call : Call) :
    c.Matches (c.answer call) (x.answer call) := by
  rw [Index.answer, tracks.current]
  have still (r : Answer) : c.Matches (.ok r, c) (.ok r, x) :=
    ⟨⟨rfl, tracks.toStandsAt, rfl⟩, fun _ => tracks⟩
  cases call with
  | current => exact still _
  | is kind => exact still _
  | isAny kinds => exact still _
  | peek depth => exact tracks.ahead depth .token
  | peekKind depth =>
    simp only [Cursor.answer, run_peek]
    have ahead := tracks.ahead depth (.kind ·.kind)
    rcases peeked : c.peek depth with ⟨e | t, d⟩ <;> rw [peeked] at ahead <;> exact ahead
  | advance => exact tracks.move
  | eat kind =>
    simp only [Cursor.answer, run_expect]
    split
    · exact tracks.move
    · exact tracks.refuse _
  | eatAny kinds =>
    simp only [Cursor.answer, run_expectAny]
    split
    · exact tracks.move
    · exact tracks.refuse _

/-- All calls are answered as the index answers them. -/
theorem Tracks.answers (tracks : c.Tracks x) (calls : List Call) :
    c.Meets (answers Cursor.answer calls c) (answers Index.answer calls x) := by
  induction calls generalizing c x with
  | nil => exact ⟨rfl, tracks.toStandsAt, rfl⟩
  | cons call calls ih =>
    obtain ⟨⟨same, stands, arena⟩, after⟩ := tracks.answer call
    simp only [ScriptSyntax.answers, same]
    split
    · exact ⟨rfl, stands, arena⟩
    · next goesOn =>
      obtain ⟨others, final, kept⟩ := ih (after (Bool.eq_false_iff.mpr goesOn))
      exact ⟨congrArg _ others, final, kept.trans arena⟩

/-- A cursor on a source starts at the first of its tokens. -/
theorem start_tracks {source : String} {file : Option String}
    {tokens : Nat → Except Error Token} {first : Token}
    (draws : (Scanner.ofText source file).Draws tokens 0) (some : tokens 0 = .ok first) :
    ∃ c, start source file = .ok c ∧ c.Tracks ⟨file.getD defaultFile, tokens, 0⟩ := by
  rw [← draws 0, Scanner.nth] at some
  rw [start]
  rcases read : (Scanner.ofText source file).next with ⟨e | t, s⟩
  · simp [read] at some
  · obtain ⟨here, later⟩ := draws.ok read
    exact ⟨_, rfl, ⟨here, by simp, Nat.zero_le _⟩, later, Scanner.file_of_next read⟩

/-- To ask for a token that is not there changes nothing but the scanner. -/
theorem answer_error_keeps {call : Call} (eats : call matches .eat _ | .eatAny _)
    (failed : c.answer call = (.error e, c')) :
    c'.current = c.current ∧ c'.pending = c.pending ∧ c'.arena = c.arena := by
  have keeps {r : Outcome Token} (given : r.map (·.map Answer.token) id = (.error e, c'))
      (is : r = c.shift ∨ r.2 = c) :
      c'.current = c.current ∧ c'.pending = c.pending ∧ c'.arena = c.arena := by
    rcases r with ⟨e | t, d⟩ <;> cases given
    rcases is with shifted | rfl
    · exact shift_error_keeps shifted.symm
    · exact ⟨rfl, rfl, rfl⟩
  cases call with
  | eat kind =>
    rw [answer, run_expect] at failed
    refine keeps failed ?_
    split <;> simp
  | eatAny kinds =>
    rw [answer, run_expectAny] at failed
    refine keeps failed ?_
    split <;> simp
  | _ => contradiction

end Cursor
end ScriptSyntax
