import Mathlib.Data.List.Basic
import ScriptSyntax.Proofs.Scan.Gap
import ScriptSyntax.Scanner.Basic

/-! Reading a token splits what is left of the text: a gap, the characters of the token, and the
rest. Only the end of input is read off no characters, so the places of tokens strictly grow. -/
namespace ScriptSyntax

namespace Point

/-- Whether `p` stands before `q` in a text. -/
def Before (p q : Point) : Prop :=
  p.line < q.line ∨ p.line = q.line ∧ p.column < q.column

variable {p q r : Point}

theorem Before.trans (first : p.Before q) (second : q.Before r) : p.Before r := by
  unfold Before at *
  omega

theorem Before.irrefl : ¬ p.Before p := by
  unfold Before
  omega

theorem before_after (p : Point) (c : Char) : p.Before (p.after c) := by
  unfold after
  split
  · exact .inl (Nat.lt_succ_self _)
  · exact .inr ⟨rfl, Nat.lt_succ_self _⟩

theorem before_advance (p : Point) {cs : List Char} (nonempty : cs ≠ []) :
    p.Before (p.advance cs) := by
  induction cs generalizing p with
  | nil => exact absurd rfl nonempty
  | cons c rest ih =>
    cases rest with
    | nil => exact before_after p c
    | cons d rest => exact (before_after p c).trans (ih (p.after c) (by simp))

theorem eq_or_before_advance (p : Point) (cs : List Char) :
    p.advance cs = p ∨ p.Before (p.advance cs) := by
  cases cs with
  | nil => exact .inl rfl
  | cons c rest => exact .inr (before_advance p (by simp))

end Point

namespace Scanner

theorem splitSign_split (cs : List Char) : (splitSign cs).1 ++ (splitSign cs).2 = cs := by
  unfold splitSign
  split <;> rfl

theorem readFraction_split {cs fraction rest : List Char}
    (read : readFraction cs = some (fraction, rest)) : fraction ++ rest = cs ∧ fraction ≠ [] := by
  unfold readFraction at read
  split at read
  · split at read
    · cases read
      simp [List.takeWhile_append_dropWhile]
    · contradiction
  · contradiction

theorem readNumber_split (cs : List Char) :
    (readNumber cs).written ++ (readNumber cs).rest = cs := by
  simp only [readNumber]
  split
  · next fraction rest read =>
    simp only [Reading.token, List.append_assoc, (readFraction_split read).1,
      List.takeWhile_append_dropWhile, splitSign_split]
  · simp only [Reading.token, List.append_assoc, List.takeWhile_append_dropWhile, splitSign_split]

theorem read_split (previous : Option Kind) (cs : List Char) :
    (read previous cs).written ++ (read previous cs).rest = cs := by
  cases cs with
  | nil => rfl
  | cons c rest =>
    simp only [read]
    split
    · simp only [readString]
      split
      · next all =>
        have whole := List.takeWhile_append_dropWhile (p := (· != c)) (l := rest)
        rw [all, List.append_nil] at whole
        simp [Reading.stuck, whole]
      · next close after more =>
        have whole := List.takeWhile_append_dropWhile (p := (· != c)) (l := rest)
        rw [more] at whole
        simp [Reading.token, whole]
    · split
      · exact readNumber_split _
      · split
        · simp only [readWord, Reading.token, List.takeWhile_append_dropWhile]
        · split
          · simp only [Reading.token, List.take_append_drop]
          · rfl

theorem spelling_pos_of_symbolAt? {cs : List Char} {k : Kind} (found : symbolAt? cs = some k) :
    0 < k.spelling.length := by
  obtain ⟨symbol, -, -⟩ := symbolAt?_spec found
  simp only [Kind.isSymbol, Bool.and_eq_true, decide_eq_true_eq] at symbol
  refine Nat.pos_of_ne_zero fun empty => symbol.1.1 ?_
  rw [← String.toList_eq_nil_iff, ← List.length_eq_zero_iff]
  exact empty

theorem splitSign_of_ne {c : Char} {rest : List Char} (unsigned : c ≠ '-') :
    splitSign (c :: rest) = ([], c :: rest) := by
  unfold splitSign
  split
  · next h =>
    cases h
    exact absurd rfl unsigned
  · rfl

/-- Behind its sign a number has a digit, and without one it may begin with its fraction. -/
theorem startsNumber_split {previous : Option Kind} {cs : List Char}
    (starts : startsNumber previous cs = true) :
    (splitSign cs).2.takeWhile Char.isDigit ≠ [] ∨
      (splitSign cs).1 = [] ∧ (splitSign cs).2.takeWhile Char.isDigit = [] ∧
        readFraction (splitSign cs).2 ≠ none := by
  cases cs with
  | nil => contradiction
  | cons c rest =>
    simp only [startsNumber, Bool.or_eq_true, Bool.and_eq_true, decide_eq_true_eq] at starts
    rcases starts with digit | ⟨follows, rfl | ⟨rfl, -⟩⟩
    · have unsigned : c ≠ '-' := by
        rintro rfl
        exact absurd digit (by decide)
      rw [splitSign_of_ne unsigned]
      exact .inl (by simp [digit])
    · rw [splitSign_of_ne (by decide)]
      exact .inr ⟨rfl, by simp [show Char.isDigit '.' = false by decide],
        by simp [readFraction, follows]⟩
    · refine .inl ?_
      cases rest with
      | nil => simp at follows
      | cons d rest =>
        rw [List.head?_cons, Option.any_some] at follows
        simp [splitSign, follows]

theorem readNumber_written_ne_nil {previous : Option Kind} {cs : List Char}
    (starts : startsNumber previous cs = true) : (readNumber cs).written ≠ [] := by
  simp only [readNumber]
  rcases startsNumber_split starts with digits | ⟨-, none, fraction⟩
  · split <;> simp [Reading.token, digits]
  · split
    · next fraction rest read => simp [Reading.token, (readFraction_split read).2]
    · next absent =>
      have whole := List.takeWhile_append_dropWhile (p := Char.isDigit) (l := (splitSign cs).2)
      rw [none, List.nil_append] at whole
      exact absurd (whole ▸ absent) fraction

theorem read_written_ne_nil {previous : Option Kind} {cs : List Char} {k : Kind} {value : String}
    (ok : (read previous cs).outcome = .ok (k, value)) (more : k ≠ .eof) :
    (read previous cs).written ≠ [] := by
  cases cs with
  | nil =>
    cases ok
    exact absurd rfl more
  | cons c rest =>
    simp only [read] at ok ⊢
    split at ok
    · next mark =>
      rw [if_pos mark]
      simp only [readString] at ok ⊢
      split at ok
      · contradiction
      · simp [Reading.token]
    · next mark =>
      rw [if_neg mark]
      split at ok
      · next number =>
        rw [if_pos number]
        exact readNumber_written_ne_nil number
      · next number =>
        rw [if_neg number]
        split at ok
        · next word =>
          have continues : continuesWord c = true := by
            simp only [startsWord, continuesWord, Bool.or_eq_true, decide_eq_true_eq] at word ⊢
            exact word.imp_left .inl
          simp [word, readWord, Reading.token, continues]
        · next word =>
          rw [if_neg word]
          split at ok
          · next kind found =>
            have width := spelling_pos_of_symbolAt? found
            simp only [Reading.token, ne_eq, List.take_eq_nil_iff, not_or]
            exact ⟨by omega, by simp⟩
          · contradiction

/-- A token is read off the text behind a gap. -/
theorem next_reads {s s' : Scanner} {t : Token} (given : s.next = (.ok t, s')) :
    ∃ gap rest, s.rest = gap ++ rest ∧ Gap rest.isEmpty gap ∧ Inked rest ∧
      (read s.previous rest).outcome = .ok (t.kind, t.value) ∧
      t.span.start = s.point.advance gap ∧
      t.span.stop = t.span.start.advance (read s.previous rest).written ∧
      s' = ⟨s.file, (read s.previous rest).rest, t.span.stop, some t.kind⟩ := by
  obtain ⟨gap, split, place, is⟩ := skipGap_split .outside s.point s.rest
  simp only [next] at given
  split at given
  · simp at given
  · next closed =>
    split at given
    · next kind value ok =>
      simp only [Prod.mk.injEq, Except.ok.injEq] at given
      obtain ⟨rfl, rfl⟩ := given
      exact ⟨gap, _, split.symm, is closed, skipGap_inked _ _ _ closed, ok, place, rfl, rfl⟩
    · simp at given

/-- A token that is read takes a gap and its own characters off the text. -/
theorem next_ok {s s' : Scanner} {t : Token} (given : s.next = (.ok t, s')) :
    ∃ gap written, s.rest = gap ++ (written ++ s'.rest) ∧
      t.span.start = s.point.advance gap ∧ s'.point = t.span.start.advance written ∧
      (t.kind ≠ .eof → written ≠ []) := by
  obtain ⟨gap, rest, split, -, -, ok, start, stop, rfl⟩ := next_reads given
  exact ⟨gap, _, by rw [read_split, split], start, stop, read_written_ne_nil ok⟩

theorem next_shortens {s s' : Scanner} {t : Token} (read : s.next = (.ok t, s'))
    (more : t.kind ≠ .eof) : s'.rest.length < s.rest.length := by
  obtain ⟨gap, written, split, -, -, nonempty⟩ := next_ok read
  have := List.length_pos_iff.mpr (nonempty more)
  rw [split, List.length_append, List.length_append]
  omega

end Scanner
end ScriptSyntax
