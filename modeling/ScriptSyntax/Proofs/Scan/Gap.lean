import ScriptSyntax.Proofs.Scan.Catalog
import ScriptSyntax.Scanner.Reading

/-! Gaps as texts: blanks and comments, in any number and order. Skipping takes a gap off the text,
and takes all of it where a token or the end of the text follows. -/
namespace ScriptSyntax.Scanner

/-- Whether a closing mark right after `body` is the first in the text. -/
def Unclosing (body : List Char) : Prop := ¬ ['*', '/'] <:+: body ++ ['*']

/-- The text of a gap. Only a gap that is the last of its text may leave a line comment open. -/
inductive Gap (final : Bool) : List Char → Prop where
  | nil : Gap final []
  | blank {c : Char} {gap : List Char} (blank : Text.isBlank c = true) (more : Gap final gap) :
      Gap final (c :: gap)
  | line (body : List Char) {gap : List Char} (within : '\n' ∉ body) (more : Gap final gap) :
      Gap final ('/' :: '/' :: (body ++ '\n' :: gap))
  | lastLine {body : List Char} (ends : final = true) (within : '\n' ∉ body) :
      Gap final ('/' :: '/' :: body)
  | block (body : List Char) {gap : List Char} (within : Unclosing body) (more : Gap final gap) :
      Gap final ('/' :: '*' :: (body ++ '*' :: '/' :: gap))

variable {final : Bool} {c : Char} {gap rest body : List Char}

attribute [local simp] skipGap

theorem Unclosing.nil : Unclosing [] := by
  intro inside
  simpa using inside.length_le

theorem Gap.line_cons (inner : Gap final ('/' :: '/' :: gap)) (same : c ≠ '\n') :
    Gap final ('/' :: '/' :: c :: gap) := by
  generalize whole : '/' :: '/' :: gap = text at inner
  cases inner with
  | nil => contradiction
  | blank blank more =>
    cases whole
    exact absurd blank (by decide)
  | line body within more =>
    cases whole
    exact .line (c :: body) (by simp [within, same.symm]) more
  | lastLine ends within =>
    cases whole
    exact .lastLine ends (by simp [within, same.symm])
  | block body within more => cases whole

theorem Gap.block_cons (inner : Gap final ('/' :: '*' :: gap))
    (apart : ¬ ['*', '/'] <+: c :: gap) : Gap final ('/' :: '*' :: c :: gap) := by
  generalize whole : '/' :: '*' :: gap = text at inner
  cases inner with
  | nil => contradiction
  | blank blank more =>
    cases whole
    exact absurd blank (by decide)
  | line body within more => cases whole
  | lastLine ends within => cases whole
  | block body within more =>
    cases whole
    refine .block (c :: body) (fun inside => ?_) more
    rcases List.infix_cons_iff.mp inside with first | later
    · refine apart (first.trans ?_)
      exact ⟨'/' :: _, by simp; rfl⟩
    · exact within later

/-- How a gap begins that is inside of `mode`. -/
def GapMode.opening : GapMode → List Char
  | .outside => []
  | .line => ['/', '/']
  | .block _ => ['/', '*']

/-- What is skipped is a gap, unless a comment is left unclosed. -/
theorem skipGap_split (mode : GapMode) (p : Point) (cs : List Char) :
    ∃ gap, gap ++ (skipGap mode p cs).rest = cs ∧ (skipGap mode p cs).point = p.advance gap ∧
      ((skipGap mode p cs).unclosed = none →
        Gap (skipGap mode p cs).rest.isEmpty (mode.opening ++ gap)) := by
  induction mode, p, cs using skipGap.induct with
  | case1 p rest ih =>
    obtain ⟨gap, split, place, is⟩ := ih
    rw [skipGap]
    exact ⟨'/' :: '/' :: gap, by simp [split], place, is⟩
  | case2 p rest ih =>
    obtain ⟨gap, split, place, is⟩ := ih
    rw [skipGap]
    exact ⟨'/' :: '*' :: gap, by simp [split], place, is⟩
  | case3 p c rest _ _ blank ih =>
    obtain ⟨gap, split, place, is⟩ := ih
    rw [skipGap, if_pos blank]
    · exact ⟨c :: gap, by simp [split], place, fun closed => .blank blank (is closed)⟩
    all_goals assumption
  | case4 p c rest _ _ inked =>
    rw [skipGap, if_neg inked]
    · exact ⟨[], rfl, rfl, fun _ => .nil⟩
    all_goals assumption
  | case5 p c rest ih =>
    obtain ⟨gap, split, place, is⟩ := ih
    rw [skipGap]
    refine ⟨c :: gap, by simp [split], place, fun closed => ?_⟩
    by_cases feed : c = '\n'
    · subst feed
      exact .line [] (by simp) (is closed)
    · rw [if_neg feed] at is closed ⊢
      exact (is closed).line_cons feed
  | case6 opened p rest ih =>
    obtain ⟨gap, split, place, is⟩ := ih
    rw [skipGap]
    refine ⟨'*' :: '/' :: gap, by simp [split], place, fun closed => ?_⟩
    exact .block [] .nil (is closed)
  | case7 opened p c rest apart ih =>
    obtain ⟨gap, split, place, is⟩ := ih
    rw [skipGap]
    · refine ⟨c :: gap, by simp [split], place, fun closed => (is closed).block_cons ?_⟩
      rintro ⟨more, same⟩
      cases same
      exact apart _ rfl split.symm
    all_goals assumption
  | case8 opened p => exact ⟨[], rfl, rfl, nofun⟩
  | case9 mode p _ =>
    rw [skipGap]
    · refine ⟨[], rfl, rfl, fun _ => ?_⟩
      cases mode with
      | outside => exact .nil
      | line => exact .lastLine rfl (by simp)
      | block opened => simp_all
    all_goals assumption

/-- Whether the text begins with no gap. -/
def Inked (cs : List Char) : Prop :=
  ¬ ['/', '/'] <+: cs ∧ ¬ ['/', '*'] <+: cs ∧ ∀ c ∈ cs.head?, Text.isBlank c = false

/-- What is skipped is followed by no gap, unless a comment is left open. -/
theorem skipGap_inked (mode : GapMode) (p : Point) (cs : List Char)
    (closed : (skipGap mode p cs).unclosed = none) : Inked (skipGap mode p cs).rest := by
  induction mode, p, cs using skipGap.induct with
  | case4 p c rest line block inked =>
    rw [skipGap, if_neg inked]
    · refine ⟨?_, ?_, by simpa using inked⟩ <;>
      · rintro ⟨more, same⟩
        cases same
        first | exact line _ rfl rfl | exact block _ rfl rfl
    all_goals assumption
  | case8 opened p => cases closed
  | case9 mode p _ =>
    rw [skipGap]
    · exact ⟨by simp, by simp, by simp⟩
    all_goals assumption
  | case3 p c rest _ _ blank ih =>
    rw [skipGap, if_pos blank] at closed ⊢
    · exact ih closed
    all_goals assumption
  | case7 opened p c rest apart ih =>
    rw [skipGap] at closed ⊢
    · exact ih closed
    all_goals assumption
  | _ =>
    rw [skipGap] at closed ⊢
    exact ‹_ → _› closed

theorem Inked.skipGap (inked : Inked rest) (p : Point) :
    skipGap .outside p rest = ⟨p, rest, none⟩ := by
  obtain ⟨noLine, noBlock, noBlank⟩ := inked
  cases rest with
  | nil => rfl
  | cons c rest =>
    rw [Scanner.skipGap, if_neg (by simp [noBlank c rfl])]
    · rintro later rfl rfl
      simp at noLine
    · rintro later rfl rfl
      simp at noBlock

theorem skipGap_blank (blank : Text.isBlank c = true) (p : Point) :
    skipGap .outside p (c :: rest) = skipGap .outside (p.after c) rest := by
  rw [skipGap, if_pos blank]
  all_goals
    rintro later rfl -
    exact absurd blank (by decide)

theorem skipGap_line (within : '\n' ∉ body) (p : Point) :
    skipGap .line p (body ++ '\n' :: rest) =
      skipGap .outside ((p.advance body).after '\n') rest := by
  induction body generalizing p with
  | nil => simp
  | cons c body ih =>
    rw [List.mem_cons, not_or] at within
    rw [List.cons_append, skipGap, if_neg (Ne.symm within.1), ih within.2]
    rfl

theorem skipGap_lastLine (within : '\n' ∉ body) (p : Point) :
    skipGap .line p body = ⟨p.advance body, [], none⟩ := by
  induction body generalizing p with
  | nil => rfl
  | cons c body ih =>
    rw [List.mem_cons, not_or] at within
    rw [skipGap, if_neg (Ne.symm within.1), ih within.2]
    rfl

theorem skipGap_block (within : Unclosing body) (opened p : Point) :
    skipGap (.block opened) p (body ++ '*' :: '/' :: rest) =
      skipGap .outside (((p.advance body).after '*').after '/') rest := by
  induction body generalizing p with
  | nil => simp
  | cons c body ih =>
    have inner : Unclosing body := fun inside => within (List.infix_cons inside)
    rw [List.cons_append, skipGap, ih inner]
    · rfl
    · rintro later rfl same
      refine within ((?_ : ['*', '/'] <+: _).isInfix)
      cases body with
      | nil => simp at same
      | cons d body =>
        cases same
        simp

/-- A gap is skipped whole where none follows. -/
theorem Gap.skipGap (is : Gap final gap) (ends : final = true → rest = []) (inked : Inked rest)
    (p : Point) : Scanner.skipGap .outside p (gap ++ rest) = ⟨p.advance gap, rest, none⟩ := by
  induction is generalizing p with
  | nil => exact inked.skipGap p
  | blank blank more ih =>
    rw [List.cons_append, skipGap_blank blank, ih]
    rfl
  | line body within more ih =>
    simp [skipGap_line within, ih]
  | lastLine final within =>
    rw [ends final]
    simp [skipGap_lastLine within]
  | block body within more ih =>
    simp [skipGap_block within, ih]

end ScriptSyntax.Scanner
