import ScriptSyntax.Proofs.Scan.Covering
import ScriptSyntax.Diagnostic

/-! The lines of a text and the places in it. Both count line feeds, so the line that a place names
is the one that the characters at that place are on, and it reaches to them. -/
namespace ScriptSyntax.Text

variable {cs lead : List Char} {c : Char}

theorem lines_cons (feed : c ≠ '\n') (inner : c = '\r' → cs.head? ≠ some '\n') :
    lines (c :: cs) = (c :: (lines cs).headD []) :: (lines cs).tail := by
  rw [lines]
  · cases lines cs <;> rfl
  · exact feed
  · rintro later rfl rfl
    exact inner rfl rfl

/-- A line feed ends the line before it, less a carriage return right before the feed. -/
theorem lines_feed (within : '\n' ∉ lead) : ∃ line cut, lead = line ++ cut ∧
    (cut = [] ∨ cut = ['\r']) ∧ ∀ rest, lines (lead ++ '\n' :: rest) = line :: lines rest := by
  induction lead with
  | nil => exact ⟨[], [], rfl, .inl rfl, fun _ => rfl⟩
  | cons c lead ih =>
    rw [List.mem_cons, not_or] at within
    by_cases returns : c = '\r' ∧ lead = []
    · obtain ⟨rfl, rfl⟩ := returns
      exact ⟨[], ['\r'], rfl, .inr rfl, fun _ => rfl⟩
    · obtain ⟨line, cut, rfl, returned, fed⟩ := ih within.2
      refine ⟨c :: line, cut, rfl, returned, fun rest => ?_⟩
      rw [List.cons_append, lines_cons (Ne.symm within.1), fed, List.headD_cons, List.tail_cons]
      rintro rfl opens
      cases whole : line ++ cut with
      | nil => exact returns ⟨rfl, whole⟩
      | cons d more =>
        rw [whole] at within opens
        obtain rfl : d = '\n' := by simpa using opens
        simp at within

theorem lines_of_unfed (within : '\n' ∉ cs) (filled : cs ≠ []) : lines cs = [cs] := by
  induction cs with
  | nil => contradiction
  | cons c cs ih =>
    rw [List.mem_cons, not_or] at within
    have inner : cs.head? ≠ some '\n' := fun opens => within.2 (List.mem_of_mem_head? opens)
    rw [lines_cons (Ne.symm within.1) fun _ => inner]
    cases cs with
    | nil => rfl
    | cons d more => rw [ih within.2 (List.cons_ne_nil d more), List.headD_cons, List.tail_cons]

/-- What stands before a place is a number of whole lines and the beginning of one more. -/
theorem exists_lead (before : List Char) : ∃ earlier lead, before = earlier ++ lead ∧
    '\n' ∉ lead ∧ (earlier = [] ∨ earlier.getLast? = some '\n') ∧
    Point.ofPrefix before = ⟨(lines earlier).length + 1, lead.length + 1⟩ ∧
    ∀ rest, lines (earlier ++ rest) = lines earlier ++ lines rest := by
  induction before using List.reverseRecOn with
  | nil => exact ⟨[], [], rfl, by simp, .inl rfl, rfl, fun _ => rfl⟩
  | append_singleton before c ih =>
    obtain ⟨earlier, lead, rfl, within, whole, place, split⟩ := ih
    rw [← Point.after_ofPrefix, place]
    by_cases feed : c = '\n'
    · subst feed
      obtain ⟨line, cut, rfl, -, fed⟩ := lines_feed within
      have again (rest : List Char) : lines ((earlier ++ (line ++ cut) ++ ['\n']) ++ rest) =
          lines earlier ++ line :: lines rest := by
        rw [List.append_assoc, List.append_assoc, split, List.singleton_append, fed]
      have all := again []
      rw [List.append_nil, lines] at all
      refine ⟨earlier ++ (line ++ cut) ++ ['\n'], [], by simp, by simp, .inr (by simp), ?_, ?_⟩
      · rw [all]
        simp [Point.after]
      · intro rest
        rw [again, all, List.append_assoc, List.singleton_append]
    · refine ⟨earlier, lead ++ [c], by simp, ?_, whole, ?_, split⟩
      · simpa [within] using Ne.symm feed
      · simp [Point.after, feed]

/-- A line reaches to each of its characters that is not blank. -/
theorem head?_lines (within : '\n' ∉ lead) (ink : isBlank c = false) (after : List Char) :
    ∃ more, (lines (lead ++ c :: after)).head? = some (lead ++ c :: more) := by
  have inked (d : Char) (blank : isBlank d = true) : c ≠ d := fun same => by
    rw [same, blank] at ink
    contradiction
  have feed : '\n' ≠ c := (inked '\n' (by decide)).symm
  by_cases fed : '\n' ∈ after
  · obtain ⟨body, rest, rfl, short⟩ := List.eq_append_cons_of_mem fed
    have within' : '\n' ∉ lead ++ c :: body := by simp [within, feed, short]
    obtain ⟨line, cut, whole, rfl | rfl, lined⟩ := lines_feed within'
    · refine ⟨body, ?_⟩
      rw [← List.cons_append, ← List.append_assoc, lined, whole, List.append_nil, List.head?_cons]
    · rcases List.eq_nil_or_concat body with rfl | ⟨more, d, rfl⟩
      · have last := congrArg List.getLast? whole
        simp only [List.getLast?_append, List.getLast?_singleton, Option.some_or] at last
        exact absurd (Option.some.inj last) (inked '\r' (by decide))
      · refine ⟨more, ?_⟩
        have cut : lead ++ c :: more = line := by
          simp only [List.concat_eq_append, ← List.cons_append, ← List.append_assoc] at whole
          exact List.append_inj_left' whole rfl
        rw [← List.cons_append, ← List.append_assoc, lined, cut, List.head?_cons]
  · refine ⟨after, ?_⟩
    rw [lines_of_unfed (by simp [within, feed, fed]) (by simp), List.head?_cons]

end ScriptSyntax.Text
