import ScriptSyntax.Proofs.Scan.Buffered

/-! Everything that a scanner ever gives. Tokens come first, and then the end of input over and
over; or an error that takes the rest of the source, and then the end of input; or an error at a
character that is never taken. What else the scanner is asked in between makes no difference. -/
namespace ScriptSyntax

/-- How the results go on after the last token. -/
inductive Ending where
  /-- The end of input, over and over. -/
  | ended (last : Token)
  /-- An error once, and then the end of input. -/
  | cut (error : Error) (last : Token)
  /-- An error, over and over. -/
  | stuck (error : Error)

/-- The results of a scanner: tokens, none of which is the end of input, and what comes then. -/
structure Transcript where
  tokens : List Token
  ending : Ending

def Ending.result : Ending → Nat → Except Error Token
  | ended last, _ => .ok last
  | cut error _, 0 => .error error
  | cut _ last, _ + 1 => .ok last
  | stuck error, _ => .error error

def Transcript.result (r : Transcript) (n : Nat) : Except Error Token :=
  (r.tokens[n]?).elim (r.ending.result (n - r.tokens.length)) .ok

/-- The end of input at a place. -/
def Token.eofAt (p : Point) : Token := ⟨.eof, "", ⟨p, p⟩⟩

open Scanner (Gap)

/-- What ends the results stands right behind a gap in what is left of the source, from a place on:
nothing, the mark of a string or a comment that is not closed, or a character that begins no
token. -/
inductive Ending.Fits (p : Point) (file : String) : List Char → Ending → Prop where
  | ended {gap : List Char} (is : Gap true gap) : Fits p file gap (.ended (.eofAt (p.advance gap)))
  | string {gap body : List Char} {mark : Char} (is : Gap false gap) (quotes : mark ∈ Lexeme.marks)
      (opened : mark ∉ body) :
      Fits p file (gap ++ mark :: body) (.cut ⟨.unterminatedString mark, ⟨p.advance gap, file⟩⟩
        (.eofAt (p.advance (gap ++ mark :: body))))
  | comment {gap body : List Char} (is : Gap false gap) (opened : ¬ ['*', '/'] <:+: body) :
      Fits p file (gap ++ '/' :: '*' :: body) (.cut ⟨.unterminatedComment, ⟨p.advance gap, file⟩⟩
        (.eofAt (p.advance (gap ++ '/' :: '*' :: body))))
  | stray {gap rest : List Char} {c : Char} (is : Gap false gap) :
      Fits p file (gap ++ c :: rest) (.stuck ⟨.unrecognisedCharacter c, ⟨p.advance gap, file⟩⟩)

/-- The results of a source from a place on. -/
structure Transcript.Fits (r : Transcript) (p : Point) (file : String) (source : List Char) :
    Prop where
  proper : ∀ t ∈ r.tokens, t.kind ≠ .eof
  few : r.tokens.length ≤ source.length
  /-- The last token stands right before what is left of the source. -/
  ends : ∃ used rest, source = used ++ rest ∧
    (∀ t ∈ r.tokens.getLast?, t.span.stop = p.advance used) ∧
    (r.tokens = [] → used = []) ∧ r.ending.Fits (p.advance used) file rest

theorem Ending.eq_of_result {e e' : Ending}
    (same : ∀ n, e.result n = e'.result n) : e = e' := by
  have first := same 0
  have second := same 1
  cases e <;> cases e' <;> simp_all [Ending.result]

namespace Transcript

variable {r r' : Transcript} {p : Point} {file : String} {used rest : List Char} {t : Token}

def cons (t : Token) (r : Transcript) : Transcript := ⟨t :: r.tokens, r.ending⟩

theorem result_cons_succ (t : Token) (r : Transcript) (n : Nat) :
    (r.cons t).result (n + 1) = r.result n := by
  simp [result, cons]

theorem Fits.of_ending {ending : Ending} (fits : ending.Fits p file rest) :
    (⟨[], ending⟩ : Transcript).Fits p file rest :=
  ⟨by simp, Nat.zero_le _, [], rest, rfl, by simp, fun _ => rfl, fits⟩

/-- A token is taken off the text before the others. -/
theorem Fits.cons (fits : r.Fits (p.advance used) file rest) (more : t.kind ≠ .eof)
    (stop : t.span.stop = p.advance used) (some : used ≠ []) :
    (r.cons t).Fits p file (used ++ rest) where
  proper := List.forall_mem_cons.mpr ⟨more, fits.proper⟩
  few := by
    have few := fits.few
    have pos := List.length_pos_iff.mpr some
    simp only [Transcript.cons, List.length_cons, List.length_append]
    omega
  ends := by
    obtain ⟨taken, left, rfl, last, first, ending⟩ := fits.ends
    rw [← Point.advance_append] at ending
    refine ⟨used ++ taken, left, (List.append_assoc ..).symm, ?_, nofun, ending⟩
    rcases tokens : r.tokens with - | ⟨u, us⟩
    · simp [Transcript.cons, tokens, first tokens, stop]
    · rw [tokens] at last
      simpa [Transcript.cons, tokens, List.getLast?_cons_cons] using last

/-- Tokens, none of which is the end of input, and an ending that begins with no such token. -/
structure Proper (r : Transcript) : Prop where
  tokens : ∀ t ∈ r.tokens, t.kind ≠ .eof
  ending : ∀ t, r.ending.result 0 = .ok t → t.kind = .eof

theorem Fits.toProper {source : List Char} (fits : r.Fits p file source) : r.Proper where
  tokens := fits.proper
  ending t given := by
    obtain ⟨taken, left, -, -, -, ending⟩ := fits.ends
    generalize r.ending = e at ending given
    cases ending <;> cases given
    rfl

/-- There are no two ways to tell the same results. -/
theorem Proper.eq_of_result (proper : r.Proper) (proper' : r'.Proper)
    (same : ∀ n, r.result n = r'.result n) : r = r' := by
  obtain ⟨ts, ending⟩ := r
  obtain ⟨us, ending'⟩ := r'
  induction ts generalizing us with
  | nil =>
    cases us with
    | nil =>
      obtain rfl : ending = ending' := Ending.eq_of_result same
      rfl
    | cons u us => exact absurd (proper.ending u (same 0)) (proper'.tokens u (by simp))
  | cons t ts ih =>
    cases us with
    | nil => exact absurd (proper'.ending t (same 0).symm) (proper.tokens t (by simp))
    | cons u us =>
      obtain rfl : t = u := Except.ok.inj (same 0)
      have rest := ih ⟨fun v member => proper.tokens v (by simp [member]), proper.ending⟩ us
        ⟨fun v member => proper'.tokens v (by simp [member]), proper'.ending⟩ fun n => by
          have later := same (n + 1)
          rwa [show (⟨t :: ts, ending⟩ : Transcript) = cons t ⟨ts, ending⟩ from rfl,
            show (⟨t :: us, ending'⟩ : Transcript) = cons t ⟨us, ending'⟩ from rfl,
            result_cons_succ, result_cons_succ] at later
      cases rest
      rfl

end Transcript

namespace Scanner

open Lexeme

variable {s s' : Scanner} {e : Error} {previous : Option Kind} {cs : List Char}

/-- Where reading fails there is a string left open, or a character that begins nothing. -/
theorem read_stuck {fault : Fault} (failed : (read previous cs).outcome = .error fault) :
    (∃ mark body, cs = mark :: body ∧ mark ∈ marks ∧ mark ∉ body ∧
      read previous cs = .stuck (.unterminatedString mark) cs []) ∨
    ∃ c rest, cs = c :: rest ∧ read previous cs = .stuck (.unrecognisedCharacter c) [] cs := by
  cases cs with
  | nil => contradiction
  | cons c rest =>
    by_cases quotes : c ∈ marks
    · by_cases closed : c ∈ rest
      · obtain ⟨value, after, rfl, apart⟩ := List.eq_append_cons_of_mem closed
        rw [read_string quotes apart] at failed
        contradiction
      · exact .inl ⟨c, rest, rfl, quotes, closed, read_openString quotes closed⟩
    have plain : ¬(c = '"' ∨ c = '\x27') := by simpa [marks] using quotes
    simp only [read, if_neg plain] at failed ⊢
    split at failed
    · simp only [readNumber] at failed
      split at failed <;> contradiction
    · next number =>
      rw [if_neg number]
      split at failed
      · contradiction
      · next word =>
        rw [if_neg word]
        split at failed
        · contradiction
        · exact .inr ⟨c, rest, rfl, rfl⟩

/-- A comment that is left open stands behind a gap, and takes the rest of the text. -/
theorem skipGap_unclosed (mode : GapMode) (p : Point) {opened : Point}
    (unclosed : (skipGap mode p cs).unclosed = some opened) :
    skipGap mode p cs = ⟨p.advance cs, [], some opened⟩ ∧
      (mode = .block opened ∧ ¬ ['*', '/'] <:+: cs ∨ ∃ gap body, cs = gap ++ '/' :: '*' :: body ∧
        opened = p.advance gap ∧ Gap false (mode.opening ++ gap) ∧ ¬ ['*', '/'] <:+: body) := by
  induction mode, p, cs using skipGap.induct with
  | case1 p rest ih =>
    rw [skipGap] at unclosed ⊢
    obtain ⟨same, ⟨⟨⟩, -⟩ | ⟨gap, body, rfl, rfl, is, opened⟩⟩ := ih unclosed
    exact ⟨same, .inr ⟨'/' :: '/' :: gap, body, rfl, rfl, is, opened⟩⟩
  | case2 p rest ih =>
    rw [skipGap] at unclosed ⊢
    obtain ⟨same, ⟨begins, opened⟩ | ⟨gap, body, rfl, rfl, is, opened⟩⟩ := ih unclosed
    · cases begins
      exact ⟨same, .inr ⟨[], rest, rfl, rfl, .nil, opened⟩⟩
    · exact ⟨same, .inr ⟨'/' :: '*' :: gap, body, rfl, rfl, is, opened⟩⟩
  | case3 p c rest _ _ blank ih =>
    rw [skipGap_blank blank] at unclosed ⊢
    obtain ⟨same, ⟨⟨⟩, -⟩ | ⟨gap, body, rfl, rfl, is, opened⟩⟩ := ih unclosed
    exact ⟨same, .inr ⟨c :: gap, body, rfl, rfl, .blank blank is, opened⟩⟩
  | case4 p c rest _ _ inked =>
    rw [skipGap, if_neg inked] at unclosed
    · cases unclosed
    all_goals assumption
  | case5 p c rest ih =>
    rw [skipGap] at unclosed ⊢
    obtain ⟨same, more⟩ := ih unclosed
    refine ⟨same, .inr ?_⟩
    by_cases feed : c = '\n'
    · subst feed
      rcases more with ⟨⟨⟩, -⟩ | ⟨gap, body, rfl, rfl, is, opened⟩
      exact ⟨'\n' :: gap, body, rfl, rfl, .line [] (by simp) is, opened⟩
    · rw [if_neg feed] at more
      rcases more with ⟨⟨⟩, -⟩ | ⟨gap, body, rfl, rfl, is, opened⟩
      exact ⟨c :: gap, body, rfl, rfl, is.line_cons feed, opened⟩
  | case6 opened' p rest ih =>
    rw [skipGap] at unclosed ⊢
    obtain ⟨same, ⟨⟨⟩, -⟩ | ⟨gap, body, rfl, rfl, is, opened⟩⟩ := ih unclosed
    exact ⟨same, .inr ⟨'*' :: '/' :: gap, body, rfl, rfl, .block [] .nil is, opened⟩⟩
  | case7 opened' p c rest apart ih =>
    rw [skipGap] at unclosed ⊢
    · obtain ⟨same, ⟨begins, opened⟩ | ⟨gap, body, rfl, rfl, is, opened⟩⟩ := ih unclosed
      · refine ⟨same, .inl ⟨begins, fun closed => ?_⟩⟩
        rcases List.infix_cons_iff.mp closed with ⟨more, split⟩ | later
        · cases split
          exact apart _ rfl rfl
        · exact opened later
      · refine ⟨same, .inr ⟨c :: gap, body, rfl, rfl, is.block_cons ?_, opened⟩⟩
        rintro ⟨more, split⟩
        cases split
        exact apart _ rfl rfl
    all_goals assumption
  | case8 opened' p =>
    cases unclosed
    exact ⟨rfl, .inl ⟨rfl, by simp⟩⟩
  | case9 mode p _ =>
    rw [skipGap] at unclosed
    · cases unclosed
    all_goals assumption

/-- What a scanner fails with ends its results, by what is left of the text. -/
theorem next_fails (failed : s.next = (.error e, s')) :
    (Ending.stuck e).Fits s.point s.file s.rest ∧ s'.next = (.error e, s') ∨
      (Ending.cut e (.eofAt s'.point)).Fits s.point s.file s.rest ∧ s'.rest = [] := by
  obtain ⟨gap, split, place, is⟩ := skipGap_split .outside s.point s.rest
  cases unclosed : (skipGap .outside s.point s.rest).unclosed with
  | some opened =>
    obtain ⟨same, ⟨⟨⟩, -⟩ | ⟨gap, body, whole, rfl, is, opened⟩⟩ :=
      skipGap_unclosed .outside s.point unclosed
    simp only [next, same] at failed
    cases failed
    refine .inr ⟨?_, rfl⟩
    rw [whole]
    exact .comment is opened
  | none =>
    have inked := skipGap_inked _ _ _ unclosed
    have skipped : skipGap .outside s.point s.rest =
        ⟨s.point.advance gap, (skipGap .outside s.point s.rest).rest, none⟩ := by
      rw [← place, ← unclosed]
    generalize (skipGap .outside s.point s.rest).rest = rest at split is inked skipped
    rw [next_eq_made skipped, made] at failed
    rcases outcome : (read s.previous rest).outcome with fault | ⟨kind, value⟩
    · rw [← split]
      rcases read_stuck outcome with
        ⟨mark, body, rfl, quotes, opened, reads⟩ | ⟨c, after, rfl, reads⟩
      · simp only [reads, Reading.stuck] at failed
        cases failed
        refine .inr ⟨?_, rfl⟩
        rw [← Point.advance_append]
        exact .string (is unclosed) quotes opened
      · simp only [reads, Reading.stuck, Point.advance_nil] at failed
        cases failed
        refine .inl ⟨.stray (is unclosed), ?_⟩
        rw [next_eq_made (inked.skipGap _), made]
        simp only [reads, Reading.stuck, Point.advance_nil]
    · simp [outcome] at failed

/-- The end of input is found behind the last gap of the text. -/
theorem next_ends {t : Token} (given : s.next = (.ok t, s')) (eof : t.kind = .eof) :
    (Ending.ended t).Fits s.point s.file s.rest := by
  obtain ⟨gap, rest, split, is, -, ok, start, stop, -⟩ := next_reads given
  rcases read_spec ok with ⟨rfl, -, empty⟩ | ⟨fits, -⟩
  · obtain ⟨kind, value, first, last⟩ := t
    have same : last = first := stop
    have place : first = s.point.advance gap := start
    subst eof empty same place
    rw [split, List.append_nil]
    exact .ended is
  · exact absurd eof fits.ne_eof

/-- The result of this number, whether or not there were errors before it. -/
def result : Nat → Scanner → Except Error Token
  | 0, s => s.next.1
  | n + 1, s => result n s.next.2

theorem result_of_eof {t : Token} (given : s.next = (.ok t, s')) (eof : t.kind = .eof) (n : Nat) :
    s.result n = .ok t := by
  have again := next_eof given eof
  induction n generalizing s with
  | zero => rw [result, given]
  | succ n ih =>
    rw [result, given]
    exact ih again

theorem result_of_stuck (failed : s.next = (.error e, s')) (again : s'.next = (.error e, s'))
    (n : Nat) : s.result n = .error e := by
  induction n generalizing s with
  | zero => rw [result, failed]
  | succ n ih =>
    rw [result, failed]
    exact ih again

theorem next_of_rest_nil (empty : s.rest = []) : ∃ s', s.next = (.ok (.eofAt s.point), s') := by
  obtain ⟨file, rest, point, previous⟩ := s
  obtain rfl : rest = [] := empty
  exact ⟨_, rfl⟩

/-- All results of a scanner: tokens off what is left of the text, and what ends them. -/
theorem exists_transcript (s : Scanner) :
    ∃ r : Transcript, r.Fits s.point s.file s.rest ∧ ∀ n, s.result n = r.result n := by
  induction size : s.rest.length using Nat.strong_induction_on generalizing s with
  | _ size ih =>
    have ended {ending : Ending} (fits : ending.Fits s.point s.file s.rest)
        (results : ∀ n, s.result n = ending.result n) :
        ∃ r : Transcript, r.Fits s.point s.file s.rest ∧ ∀ n, s.result n = r.result n :=
      ⟨⟨[], ending⟩, .of_ending fits, results⟩
    rcases given : s.next with ⟨e | t, s'⟩
    · rcases next_fails given with ⟨fits, again⟩ | ⟨fits, empty⟩
      · exact ended fits (result_of_stuck given again)
      · obtain ⟨_, last⟩ := next_of_rest_nil empty
        refine ended fits fun n => ?_
        cases n with
        | zero => rw [result, given]; rfl
        | succ n =>
          rw [result, given]
          exact result_of_eof last rfl n
    · by_cases eof : t.kind = .eof
      · exact ended (next_ends given eof) (result_of_eof given eof)
      · obtain ⟨r, fits, results⟩ := ih _ (size ▸ next_shortens given eof) s' rfl
        obtain ⟨gap, rest, split, -, -, ok, start, stop, rfl⟩ := next_reads given
        have parts := read_split s.previous rest
        have written := read_written_ne_nil ok eof
        rw [stop, start, ← Point.advance_append] at fits
        refine ⟨r.cons t, ?_, fun n => ?_⟩
        · rw [split, ← parts, ← List.append_assoc]
          exact fits.cons eof (by rw [stop, start, Point.advance_append]) (by simp [written])
        · cases n with
          | zero => rw [result, given]; rfl
          | succ n => rw [result, given, Transcript.result_cons_succ, ← results]

/-- What a scanner leaves is the rest of its text, further on by what it took. -/
theorem next_leaves (s : Scanner) :
    ∃ used, s.rest = used ++ s.next.2.rest ∧ s.next.2.point = s.point.advance used ∧
      s.next.2.file = s.file := by
  obtain ⟨gap, split, place, -⟩ := skipGap_split .outside s.point s.rest
  cases unclosed : (skipGap .outside s.point s.rest).unclosed with
  | some opened =>
    simp only [next, unclosed]
    exact ⟨gap, split.symm, place, trivial⟩
  | none =>
    have skipped : skipGap .outside s.point s.rest =
        ⟨s.point.advance gap, (skipGap .outside s.point s.rest).rest, none⟩ := by
      rw [← place, ← unclosed]
    generalize (skipGap .outside s.point s.rest).rest = rest at split skipped
    refine ⟨gap ++ (read s.previous rest).written, ?_, ?_, ?_⟩
    · rw [next_eq_made skipped, rest_made, List.append_assoc, read_split, split]
    · rw [next_eq_made skipped, point_made, Point.advance_append]
    · rw [next_eq_made skipped, file_made]

end Scanner

namespace Buffer

/-- What a scanner may be asked. -/
inductive Ask where
  | next
  | isAtEnd
  | position
deriving DecidableEq

inductive Reply where
  | result (given : Except Error Token)
  | atEnd (holds : Bool)
  | place (p : Position)

/-- The result, where the reply is one. -/
def Reply.result? : Reply → Option (Except Error Token)
  | result given => some given
  | _ => none

def reply (b : Buffer) : Ask → Reply × Buffer
  | .next => let (given, b) := b.next; (.result given, b)
  | .isAtEnd => let (holds, b) := b.isAtEnd; (.atEnd holds, b)
  | .position => (.place b.position, b)

def replies : List Ask → Buffer → List Reply × Buffer
  | [], b => ([], b)
  | ask :: asks, b =>
    let (r, b) := b.reply ask
    let (rs, b) := replies asks b
    (r :: rs, b)

variable {b : Buffer} {source used : List Char} {file : String}

/-- The characters that were taken, and that the queue stayed short all the while. -/
structure Within (b : Buffer) (source : List Char) (file : String) (used : List Char) : Prop where
  split : source = used ++ b.text
  position : b.position = ⟨Point.start.advance used, file⟩
  short : b.Short

theorem isAtEnd_iff (b : Buffer) : b.isAtEnd.1 = true ↔ b.text = [] := by
  rw [isAtEnd, ahead_fill b Nat.one_pos]
  cases b.text <;> simp

/-- To look whether there is more changes nothing that can be told. -/
theorem Takes.isAtEnd (b : Buffer) : b.Takes [] b.isAtEnd.2 := .fill_one b

theorem Takes.scanner_eq {b' : Buffer} (looks : b.Takes [] b') : b'.scanner = b.scanner := by
  have text : b.text = b'.text := looks.text
  simp only [scanner, looks.file, looks.point, looks.previous, text, Point.advance_nil]

theorem Within.goOn {b' : Buffer} {taken : List Char} (within : b.Within source file used)
    (text : b.text = taken ++ b'.text) (point : b'.point = b.point.advance taken)
    (same : b'.file = b.file) (short : b.Short → b'.Short) :
    b'.Within source file (used ++ taken) where
  split := by rw [within.split, text, List.append_assoc]
  position := by
    obtain ⟨start, name⟩ := Position.mk.inj within.position
    rw [Buffer.position, point, same, start, name, Point.advance_append]
  short := short within.short

theorem Within.reply (within : b.Within source file used) (ask : Ask) :
    ∃ more, (b.reply ask).2.Within source file more := by
  cases ask with
  | next =>
    obtain ⟨same, keeps⟩ := b.next_scanner
    obtain ⟨taken, rest, point, name⟩ := b.scanner.next_leaves
    rw [← same] at rest point name
    exact ⟨_, within.goOn rest point name keeps⟩
  | isAtEnd =>
    have looks := Takes.isAtEnd b
    exact ⟨_, within.goOn looks.text looks.point looks.file looks.short⟩
  | position => exact ⟨used, within⟩

theorem Within.replies (within : b.Within source file used) (asks : List Ask) :
    ∃ more, (b.replies asks).2.Within source file more := by
  induction asks generalizing b used with
  | nil => exact ⟨used, within⟩
  | cons ask asks ih =>
    obtain ⟨more, after⟩ := within.reply ask
    exact ih after

/-- Only what is asked for a result takes anything. -/
theorem reply_scanner (b : Buffer) (ask : Ask) :
    (b.reply ask).1.result? = (if ask = .next then some b.scanner.next.1 else none) ∧
      (b.reply ask).2.scanner = if ask = .next then b.scanner.next.2 else b.scanner := by
  cases ask with
  | next =>
    obtain ⟨same, -⟩ := b.next_scanner
    rw [← same]
    exact ⟨rfl, rfl⟩
  | isAtEnd => exact ⟨rfl, (Takes.isAtEnd b).scanner_eq⟩
  | position => exact ⟨rfl, rfl⟩

theorem replies_results (asks : List Ask) (b : Buffer) :
    (b.replies asks).1.filterMap Reply.result? =
      (List.range (asks.count .next)).map (b.scanner.result ·) := by
  induction asks generalizing b with
  | nil => rfl
  | cons ask asks ih =>
    obtain ⟨result, after⟩ := b.reply_scanner ask
    simp only [Buffer.replies, List.filterMap_cons, ih, result, after, List.count_cons]
    cases ask with
    | next => simp [List.range_succ_eq_map, Function.comp_def, Scanner.result]
    | _ => simp

/-- Whatever a scanner is asked in between, its results are tokens off the source and then just one
of the endings. The characters taken and those left make up the source all the while, it is at its
end where none are left, and the queue is never longer than what may be looked at ahead. -/
theorem replies_transcript (source : String) (file : Option String) :
    (∃! r : Transcript, r.Fits .start (file.getD defaultFile) source.toList ∧
      ∀ asks : List Ask, ((ofText source file).replies asks).1.filterMap Reply.result? =
        (List.range (asks.count .next)).map r.result) ∧
    ∀ asks : List Ask, ∃ used,
      ((ofText source file).replies asks).2.Within source.toList (file.getD defaultFile) used ∧
        (((ofText source file).replies asks).2.isAtEnd.1 = true ↔ used = source.toList) := by
  constructor
  · obtain ⟨r, fits, results⟩ := (ofText source file).scanner.exists_transcript
    refine ⟨r, ⟨fits, fun asks => ?_⟩, fun r' ⟨fits', results'⟩ => ?_⟩
    · rw [replies_results]
      exact List.map_congr_left fun n _ => results n
    · refine fits'.toProper.eq_of_result fits.toProper fun n => ?_
      have listed := results' (List.replicate (n + 1) .next)
      rw [replies_results, List.count_replicate_self] at listed
      have same := List.map_inj_left.mp listed n (by simp)
      rw [← same, results]
  · intro asks
    have begins : (ofText source file).Within source.toList (file.getD defaultFile) [] :=
      ⟨rfl, rfl, by simp [Short, ofText]⟩
    obtain ⟨used, within⟩ := begins.replies asks
    refine ⟨used, within, ?_⟩
    rw [isAtEnd_iff, within.split]
    simp

end Buffer

end ScriptSyntax
