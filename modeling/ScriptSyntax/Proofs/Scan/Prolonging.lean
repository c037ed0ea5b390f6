import ScriptSyntax.Proofs.Scan.Lexing

/-! Texts that go on. What is read off a text is read off any text that goes on after it with a
blank, and where that text ends the scanner goes on as if it began there, but for the minus of a
number. -/
namespace ScriptSyntax

/-- A number literal with a minus sign. -/
def Token.isNegative (t : Token) : Bool :=
  [.intVal, .realVal].contains t.kind && t.value.toList.head? = some '-'

namespace Scanner

variable {previous previous' : Option Kind} {cs rest after gap : List Char} {c mark : Char}
  {k : Kind} {value : String} {p : Point} {final : Bool}

/-! One token. -/

/-- The reading off a text that goes on. -/
def Reading.before (r : Reading) (after : List Char) : Reading :=
  { r with rest := r.rest ++ after }

/-- What no blank is part of ends where its text does. -/
theorem Ends.takeWhile_append {q : Char → Bool} (ends : Ends after)
    (apart : ∀ c, Text.isBlank c = true → q c = false) (cs : List Char) :
    (cs ++ after).takeWhile q = cs.takeWhile q ∧
      (cs ++ after).dropWhile q = cs.dropWhile q ++ after := by
  induction cs with
  | nil => simpa using ends.split apart (List.forall_mem_nil _)
  | cons d cs ih => cases h : q d <;> simp [h, ih]

theorem Ends.head?_append {q : Char → Bool} (ends : Ends after)
    (apart : ∀ c, Text.isBlank c = true → q c = false) (cs : List Char) :
    (cs ++ after).head?.any q = cs.head?.any q := by
  cases cs with
  | nil => exact ends.head_eq_false apart
  | cons d cs => rfl

theorem readString_append {found : Kind × String} (ok : (readString mark cs).outcome = .ok found)
    (after : List Char) : readString mark (cs ++ after) = (readString mark cs).before after := by
  simp only [readString] at ok ⊢
  have whole := List.takeWhile_append_dropWhile (p := (· != mark)) (l := cs)
  split at ok
  · contradiction
  · next close rest closed =>
    have short : (cs.takeWhile (· != mark)).length ≠ cs.length := fun same => by
      have lengths := congrArg List.length whole
      simp [closed, same] at lengths
    simp [List.takeWhile_append, List.dropWhile_append, closed, short, Reading.before,
      Reading.token]

theorem Ends.readFraction_append (ends : Ends after) (cs : List Char) :
    Scanner.readFraction (cs ++ after) =
      (Scanner.readFraction cs).map fun found => (found.1, found.2 ++ after) := by
  cases cs with
  | nil => simpa [Scanner.readFraction] using ends.readFraction
  | cons d cs =>
    by_cases point : d = '.'
    · subst point
      obtain ⟨taken, left⟩ := ends.takeWhile_append (fun _ => isDigit_of_isBlank) cs
      have digit := ends.head?_append (fun _ => isDigit_of_isBlank) cs
      simp only [List.cons_append, Scanner.readFraction, digit, taken, left]
      split <;> rfl
    · simp [Scanner.readFraction, point]

theorem splitSign_prolonged (some : cs ≠ []) :
    splitSign (cs ++ after) = ((splitSign cs).1, (splitSign cs).2 ++ after) := by
  cases cs with
  | nil => contradiction
  | cons d cs =>
    by_cases minus : d = '-'
    · subst minus
      rfl
    · rw [List.cons_append, splitSign_of_ne minus, splitSign_of_ne minus, List.cons_append]

theorem Ends.readNumber_append (ends : Ends after) (some : cs ≠ []) :
    readNumber (cs ++ after) = (readNumber cs).before after := by
  obtain ⟨taken, left⟩ := ends.takeWhile_append (fun _ => isDigit_of_isBlank) (splitSign cs).2
  simp only [readNumber, splitSign_prolonged some, taken, left, ends.readFraction_append]
  cases Scanner.readFraction ((splitSign cs).2.dropWhile Char.isDigit) <;> rfl

theorem Ends.readWord_append (ends : Ends after) (cs : List Char) :
    readWord (cs ++ after) = (readWord cs).before after := by
  obtain ⟨taken, left⟩ := ends.takeWhile_append (fun _ => continuesWord_of_isBlank) cs
  simp only [readWord, taken, left]
  rfl

theorem Ends.startsNumber_append (ends : Ends after) (some : cs ≠ []) :
    startsNumber previous (cs ++ after) = startsNumber previous cs := by
  cases cs with
  | nil => contradiction
  | cons d cs =>
    simp only [List.cons_append, startsNumber, ends.head?_append fun _ => isDigit_of_isBlank]

/-- A symbol at the end of a text does not reach into what follows. -/
theorem Ends.symbolAt?_append (ends : Ends after) (cs : List Char) :
    symbolAt? (cs ++ after) = symbolAt? cs := by
  ext k
  rw [symbolAt?_eq_some_iff, symbolAt?_eq_some_iff]
  refine and_congr_right fun symbol => and_congr (ends.spelling_prefix_append symbol) ?_
  refine forall_congr' fun m => imp_congr_right fun symbol' => ?_
  rw [ends.spelling_prefix_append symbol']

/-- A token is read the same where the text goes on with a blank. -/
theorem Ends.read_append {found : Kind × String} (ends : Ends after) (some : cs ≠ [])
    (ok : (read previous cs).outcome = .ok found) :
    read previous (cs ++ after) = (read previous cs).before after := by
  cases cs with
  | nil => contradiction
  | cons d cs =>
    have number : startsNumber previous (d :: cs ++ after) = startsNumber previous (d :: cs) :=
      ends.startsNumber_append some
    have digits := ends.readNumber_append some
    have word := ends.readWord_append (d :: cs)
    have symbol := ends.symbolAt?_append (d :: cs)
    simp only [List.cons_append] at number digits word symbol ⊢
    simp only [read] at ok ⊢
    rw [number, digits, word, symbol]
    split at ok
    · next marked => rw [if_pos marked, if_pos marked, readString_append ok]
    · next marked =>
      rw [if_neg marked, if_neg marked]
      split
      · rfl
      split
      · rfl
      · next plain letter =>
        rw [if_neg plain, if_neg letter] at ok
        split at ok
        · next kind at? =>
          have inside : kind.spelling.length ≤ (d :: cs).length := by
            obtain ⟨-, begins, -⟩ := symbolAt?_spec at?
            rw [← String.length_toList]
            exact begins.length_le
          simp only [Reading.before, Reading.token]
          rw [← List.cons_append, List.take_append_of_le_length inside,
            List.drop_append_of_le_length inside]
        · contradiction

/-! Gaps. -/

/-- A gap that is not the last of its text is skipped before anything else. -/
theorem Gap.skipGap_append (skipped : Gap false gap) (p : Point) :
    Scanner.skipGap .outside p (gap ++ rest) = Scanner.skipGap .outside (p.advance gap) rest := by
  generalize last : false = final at skipped
  induction skipped generalizing p with
  | nil => rfl
  | blank blank more ih =>
    rw [List.cons_append, skipGap_blank blank, ih]
    rfl
  | line body within more ih =>
    simp only [List.cons_append, List.append_assoc, Scanner.skipGap, skipGap_line within, ih]
    simp
  | lastLine ends within => simp [← last] at ends
  | block body within more ih =>
    simp only [List.cons_append, List.append_assoc, Scanner.skipGap, skipGap_block within, ih]
    simp

/-- A line feed closes what the last gap of a text may leave open. -/
theorem Gap.feed (skipped : Gap final gap) : Gap false (gap ++ ['\n']) := by
  induction skipped with
  | nil => exact .blank (by decide) .nil
  | blank blank more ih => exact .blank blank ih
  | line body within more ih =>
    rw [List.cons_append, List.cons_append, List.append_assoc, List.cons_append]
    exact .line body within ih
  | @lastLine body ends within => exact .line body within .nil
  | block body within more ih =>
    rw [List.cons_append, List.cons_append, List.append_assoc, List.cons_append, List.cons_append]
    exact .block body within ih

/-! Scanners. -/

variable {s s' : Scanner} {t first last : Token} {ts us : List Token} {file : String} {n : Nat}

/-- A token is read behind a gap. -/
theorem next_of_read (split : s.rest = gap ++ rest) (skipped : Gap rest.isEmpty gap)
    (inked : Inked rest) (ok : (read s.previous rest).outcome = .ok (t.kind, t.value))
    (start : t.span.start = s.point.advance gap)
    (stop : t.span.stop = t.span.start.advance (read s.previous rest).written) :
    s.next = (.ok t, ⟨s.file, (read s.previous rest).rest, t.span.stop, some t.kind⟩) := by
  have skip := skipped.skipGap List.isEmpty_iff.mp inked s.point
  obtain ⟨kind, value, from', to'⟩ := t
  dsimp only at ok start stop ⊢
  rw [next, split, skip]
  simp only [ok, start, stop]

/-- The scanner on a text that goes on. -/
def before (s : Scanner) (file : String) (after : List Char) : Scanner :=
  ⟨file, s.rest ++ after, s.point, s.previous⟩

theorem Ends.next_before (ends : Ends after) (given : s.next = (.ok t, s')) (more : t.kind ≠ .eof) :
    (s.before file after).next = (.ok t, s'.before file after) := by
  obtain ⟨gap, rest, split, skipped, inked, ok, start, stop, rfl⟩ := next_reads given
  have some : rest ≠ [] := by
    rintro rfl
    exact more (Prod.mk.inj (Except.ok.inj ok)).1.symm
  have reading := ends.read_append some ok
  have split' : (s.before file after).rest = gap ++ (rest ++ after) := by
    rw [before, split, List.append_assoc]
  have skipped' : Gap (rest ++ after).isEmpty gap := by
    rw [List.isEmpty_eq_false_iff.mpr some] at skipped
    rwa [List.isEmpty_eq_false_iff.mpr (List.append_ne_nil_of_left_ne_nil some after)]
  have next := next_of_read split' skipped' (inked.append some ends) (t := t)
    (by rw [before, reading]; exact ok) start (by rw [before, reading]; exact stop)
  rw [next]
  simp only [before, reading, Reading.before]

theorem Ends.emits_before (ends : Ends after) (reads : s.Emits ts s')
    (more : ∀ t ∈ ts, t.kind ≠ .eof) : (s.before file after).Emits ts (s'.before file after) := by
  induction reads with
  | nil => exact .nil
  | cons given later ih =>
    obtain ⟨here, others⟩ := List.forall_mem_cons.mp more
    exact .cons (ends.next_before given here) (ih others)

/-- What the scanner gives behind a gap it gives where it stands before it. -/
theorem next_skip (split : s.rest = gap ++ rest) (skipped : Gap false gap) :
    s.next = (Scanner.mk s.file rest (s.point.advance gap) s.previous).next := by
  rw [next, next, split, skipped.skipGap_append]

/-- Where the text ended, the scanner goes on behind a line feed. -/
theorem next_feed (given : s.next = (.ok last, s')) (eof : last.kind = .eof) :
    ∃ p, ∀ file after,
      (s.before file ('\n' :: after)).next = (Scanner.mk file after p s.previous).next := by
  obtain ⟨gap, rest, split, skipped, inked, ok, start, stop, rfl⟩ := next_reads given
  have none : rest = [] := by
    rcases read_spec ok with ⟨none, -⟩ | ⟨fits, -⟩
    · exact none
    · exact absurd eof fits.ne_eof
  subst none
  refine ⟨s.point.advance (gap ++ ['\n']), fun file after => next_skip ?_ skipped.feed⟩
  rw [before, split, List.append_nil, List.append_assoc, List.singleton_append]

/-! What was read before matters for the minus of a number alone. -/

theorem read_of_startsNumber (same : startsNumber previous' cs = startsNumber previous cs) :
    read previous' cs = read previous cs := by
  cases cs with
  | nil => rfl
  | cons c cs => simp only [read, same]

theorem next_previous {p : Point}
    (given : (Scanner.mk file cs p previous).next = (.ok t, s'))
    (same : previous'.any endsOperand = previous.any endsOperand) :
    (Scanner.mk file cs p previous').next = (.ok t, s') := by
  obtain ⟨gap, rest, split, skipped, inked, ok, start, stop, rfl⟩ := next_reads given
  have reading : read previous' rest = read previous rest := by
    apply read_of_startsNumber
    cases rest with
    | nil => rfl
    | cons c cs => simp only [startsNumber, same]
  have next := @next_of_read _ _ ⟨file, cs, p, previous'⟩ t split skipped inked (reading ▸ ok) start
    (reading ▸ stop)
  rw [next, reading]

theorem read_previous (ok : (read none cs).outcome = .ok (t.kind, t.value))
    (positive : previous.any endsOperand = false ∨ t.isNegative = false) :
    read previous cs = read none cs := by
  apply read_of_startsNumber
  cases cs with
  | nil => rfl
  | cons c cs =>
    by_cases minus : c = '-' ∧ cs.head?.any Char.isDigit = true
    · obtain ⟨rfl, digit⟩ := minus
      have starts : startsNumber none ('-' :: cs) = true := by simp [startsNumber, digit]
      rcases positive with free | positive
      · simp [startsNumber, digit, free]
      · rw [read_number starts] at ok
        simp only [readNumber, splitSign] at ok
        split at ok
        all_goals
          obtain ⟨kind, value⟩ := Prod.mk.inj (Except.ok.inj ok)
          simp [Token.isNegative, ← kind, ← value] at positive
    · simp only [not_and, Bool.not_eq_true] at minus
      by_cases sign : c = '-'
      · simp [startsNumber, minus sign]
      · simp [startsNumber, sign]

end Scanner
end ScriptSyntax
