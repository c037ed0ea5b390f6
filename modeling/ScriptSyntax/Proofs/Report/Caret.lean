import ScriptSyntax.Diagnostic
import ScriptSyntax.Proofs.Program.Faults
import ScriptSyntax.Proofs.Report.Lines
import ScriptSyntax.Proofs.Scan.Transcript

/-! Where the errors of a source lie, and how a report shows the place. An error lies at the start
of something that is no gap, or at the end of the source. Neither is in the indent of its line, so
the caret has room to stand below it. -/
namespace ScriptSyntax

open Text (line? lines isBlank)
open Diagnostic (padLeft dropTrailingBlanks header excerpt render)

variable {source : String} {file : Option String} {e : Error}

/-- The place is that of a character that is not blank, or right after the text. -/
def Point.Inks (p : Point) (text : List Char) : Prop :=
  p = .ofPrefix text ∨ ∃ before c after, text = before ++ c :: after ∧ p = .ofPrefix before ∧
    isBlank c = false

namespace Scanner

variable {s s' : Scanner} {ts : List Token}

theorem next_error_inks (failed : s.next = (.error e, s')) :
    ∃ gap c rest, s.rest = gap ++ c :: rest ∧ e.position.point = s.point.advance gap ∧
      isBlank c = false := by
  simp only [next] at failed
  split at failed
  · next opened left =>
    cases failed
    obtain ⟨-, ⟨⟨⟩, -⟩ | ⟨gap, body, split, place, -⟩⟩ := skipGap_unclosed .outside s.point left
    exact ⟨gap, '/', '*' :: body, split, place, by decide⟩
  · next closed =>
    split at failed
    · simp at failed
    · next stuck =>
      cases failed
      obtain ⟨gap, split, place, -⟩ := skipGap_split .outside s.point s.rest
      have inked := skipGap_inked _ _ _ closed
      generalize (skipGap .outside s.point s.rest).rest = rest at split stuck inked
      cases rest with
      | nil => contradiction
      | cons c rest => exact ⟨gap, c, rest, split.symm, place, inked.2.2 c rfl⟩

theorem Emits.takes (reads : s.Emits ts s') :
    ∃ taken, s.rest = taken ++ s'.rest ∧ s'.point = s.point.advance taken := by
  induction reads with
  | nil => exact ⟨[], rfl, rfl⟩
  | cons given _ ih =>
    obtain ⟨gap, written, split, start, stop, -⟩ := next_ok given
    obtain ⟨taken, later, place⟩ := ih
    refine ⟨gap ++ written ++ taken, ?_, ?_⟩
    · rw [split, later]
      simp
    · rw [place, stop, start]
      simp

/-- An error of a source lies at a character that is not blank, or at the end. -/
theorem Finds.inks (found : (ofText source file).Finds e) :
    e.position.point.Inks source.toList := by
  have begins : (ofText source file).point = .ofPrefix [] := rfl
  cases found with
  | lexical reads stuck =>
    obtain ⟨taken, split, place⟩ := reads.takes
    obtain ⟨gap, c, rest, later, lies, ink⟩ := next_error_inks stuck
    refine .inr ⟨taken ++ gap, c, rest, ?_, ?_, ink⟩
    · rw [List.append_assoc, ← later]
      exact split
    · rw [lies, place, begins, Point.advance_ofPrefix, Point.advance_ofPrefix, List.nil_append]
  | syntactic reads member fault place =>
    obtain ⟨us, vs, rfl⟩ := List.mem_iff_append.mp member
    obtain ⟨middle, before, after⟩ := reads.exists_of_append
    obtain ⟨taken, split, lies⟩ := before.takes
    cases after with
    | cons given _ =>
      obtain ⟨gap, rest, later, -, inked, -, start, -, -⟩ := next_reads given
      rw [lies, begins, Point.advance_ofPrefix, Point.advance_ofPrefix, List.nil_append] at start
      have whole : source.toList = taken ++ gap ++ rest := by
        rw [List.append_assoc, ← later]
        exact split
      rw [place]
      cases rest with
      | nil => exact .inl (by rw [whole, List.append_nil]; exact start)
      | cons c rest => exact .inr ⟨_, c, rest, whole, start, inked.2.2 c rfl⟩

end Scanner

namespace Diagnostic

/-- The line is an indent of spaces, a text and the blanks at its end. -/
structure Trims (line : List Char) (indent : Nat) (text trail : List Char) : Prop where
  whole : line = List.replicate indent ' ' ++ (text ++ trail)
  begins : ∀ c ∈ (text ++ trail).head?, c ≠ ' '
  ends : ∀ c ∈ text.getLast?, isBlank c = false
  blank : ∀ c ∈ trail, isBlank c = true

variable {line text trail : List Char} {indent : Nat} {c : Char}

theorem exists_trims (line : List Char) : ∃ indent text trail, Trims line indent text trail := by
  let text := line.dropWhile (· = ' ')
  have spaces : line.takeWhile (· = ' ') =
      List.replicate (line.takeWhile (· = ' ')).length ' ' :=
    List.eq_replicate_of_mem fun c member => by simpa using List.mem_takeWhile_imp member
  refine ⟨(line.takeWhile (· = ' ')).length, text.rdropWhile isBlank, text.rtakeWhile isBlank,
    ?_, ?_, fun c last => ?_, fun c member => List.mem_rtakeWhile_imp member⟩
  · rw [List.rdropWhile_append_rtakeWhile, ← spaces, List.takeWhile_append_dropWhile]
  · rw [List.rdropWhile_append_rtakeWhile]
    intro c first
    obtain ⟨more, split⟩ := List.head?_eq_some_iff.mp first
    have filled : text ≠ [] := by simp [split]
    have inked := List.head_dropWhile_not (· = ' ') filled
    simpa [text, split] using inked
  · obtain ⟨filled, rfl⟩ := List.mem_getLast?_eq_getLast last
    exact Bool.eq_false_iff.mpr (List.rdropWhile_last_not isBlank text filled)

theorem Trims.dropWhile (trims : Trims line indent text trail) :
    line.dropWhile (· = ' ') = text ++ trail := by
  rw [trims.whole, List.dropWhile_append_of_pos (by simp)]
  cases rest : text ++ trail with
  | nil => rfl
  | cons c more => exact List.dropWhile_cons_of_neg (by simpa using trims.begins c (by simp [rest]))

theorem Trims.dropTrailingBlanks (trims : Trims line indent text trail) :
    dropTrailingBlanks (text ++ trail) = text := by
  have kept : text.rdropWhile isBlank = text := List.rdropWhile_eq_self_iff.mpr fun filled =>
    Bool.eq_false_iff.mp (trims.ends _ (List.getLast_mem_getLast? filled))
  rw [Diagnostic.dropTrailingBlanks, List.reverse_append, List.dropWhile_append_of_pos]
  · exact kept
  · exact fun c member => trims.blank c (List.mem_reverse.mp member)

theorem Trims.indent_le {lead more : List Char}
    (trims : Trims (lead ++ c :: more) indent text trail) (ink : isBlank c = false) :
    indent ≤ lead.length := by
  by_contra short
  have place := congrArg (·[lead.length]?) trims.whole
  simp only [List.getElem?_append_right (Nat.le_refl _), Nat.sub_self,
    List.getElem?_cons_zero] at place
  rw [List.getElem?_append_left (by simpa using short),
    List.getElem?_replicate_of_lt (Nat.lt_of_not_le short), Option.some.injEq] at place
  rw [place] at ink
  exact absurd ink (by decide)

/-- The report shows the line that the error is on, less its indent and the blanks at its end, and
below it a caret in the column of the error. -/
structure Pictures (e : Error) (source : String) (indent : Nat) (text trail : List Char)
    (gutter caret : String) : Prop where
  line : ∃ line, line? source.toList e.position.point.line = some line ∧
    Trims line indent text trail
  report : render e source = header e ++ gutter ++ "\n" ++
    (toString e.position.point.line ++ " | ") ++ String.ofList text ++ "\n" ++
    (gutter ++ " ") ++ caret ++ "\n"
  margins : (gutter ++ " ").length = (toString e.position.point.line ++ " | ").length
  drawn : ∃ dashes, caret = String.ofList (List.replicate dashes '-') ++ "^"
  aligned : caret.length + indent = e.position.point.column

theorem length_padLeft {width : Nat} {fill : Char} {s : String} (fits : s.length ≤ width) :
    (padLeft width fill s).length = width := by
  simp [padLeft, Nat.sub_add_cancel fits]

/-- There is room for the caret where the error is not in the indent. -/
theorem pictures_of_room
    (shown : line? source.toList e.position.point.line = some line)
    (trims : Trims line indent text trail) (room : indent < e.position.point.column) :
    ∃ gutter caret, Pictures e source indent text trail gutter caret := by
  have removed : line.length - (text ++ trail).length = indent := by
    rw [trims.whole]
    simp
  have bar : "|".length = 1 := by decide
  have caret : "^".length = 1 := by decide
  refine ⟨padLeft ((toString e.position.point.line).length + 2) ' ' "|",
    padLeft (e.position.point.column - indent) '-' "^", ⟨line, shown, trims⟩, ?_, ?_,
    ⟨e.position.point.column - indent - 1, ?_⟩, ?_⟩
  · rw [render, shown, Option.elim_some, excerpt, trims.dropWhile, trims.dropTrailingBlanks,
      removed]
    simp only [String.append_assoc]
  · rw [String.length_append, String.length_append, length_padLeft (by simp [bar])]
    simp only [(by decide : " ".length = 1), (by decide : " | ".length = 3)]
  · rw [padLeft, caret]
  · rw [length_padLeft (by omega)]
    omega

/-- The last column of the caret is under the character that the error lies at. -/
theorem Pictures.under {lead more : List Char} {gutter caret : String}
    (pictures : Pictures e source indent text trail gutter caret)
    (shown : line? source.toList e.position.point.line = some (lead ++ c :: more))
    (column : e.position.point.column = lead.length + 1) (ink : isBlank c = false) :
    text[caret.length - 1]? = some c := by
  obtain ⟨line, same, trims⟩ := pictures.line
  rw [shown] at same
  obtain rfl := Option.some.inj same
  have aligned := pictures.aligned
  have drawn : 0 < caret.length := by
    obtain ⟨dashes, rfl⟩ := pictures.drawn
    simp [(by decide : "^".length = 1)]
  have place : (List.replicate indent ' ' ++ (text ++ trail))[lead.length]? = some c := by
    rw [← trims.whole, List.getElem?_append_right (Nat.le_refl _), Nat.sub_self]
    rfl
  have index : lead.length - indent = caret.length - 1 := by omega
  rw [List.getElem?_append_right (by rw [List.length_replicate]; omega), List.length_replicate,
    index] at place
  by_cases inside : caret.length - 1 < text.length
  · rwa [List.getElem?_append_left inside] at place
  · rw [List.getElem?_append_right (Nat.le_of_not_lt inside)] at place
    exact absurd (trims.blank c (List.mem_of_getElem? place)) (by simp [ink])

end Diagnostic

open Diagnostic

theorem line?_of_lines_append {earlier rest : List Char}
    (split : lines (earlier ++ rest) = lines earlier ++ lines rest) :
    line? (earlier ++ rest) ((lines earlier).length + 1) = (lines rest).head? := by
  rw [line?, split, List.getElem?_append_right (Nat.le_refl _), Nat.sub_self,
    List.head?_eq_getElem?]

/-- The caret of a report points at the fault: it stands in the column of the error, under the
character there unless that is the end of the source. No line is shown for an error at the end of a
source that is empty or ends a line. -/
theorem render_points (failed : tokenize source file = .error e ∨ parse source file = .error e) :
    (line? source.toList e.position.point.line = none ∧
      e.position.point = .ofPrefix source.toList ∧
      (source.toList = [] ∨ source.toList.getLast? = some '\n') ∧ render e source = header e) ∨
    ∃ indent text trail gutter caret, Pictures e source indent text trail gutter caret ∧
      (e.position.point = .ofPrefix source.toList ∨
        ∃ before c after, source.toList = before ++ c :: after ∧
          e.position.point = .ofPrefix before ∧ text[caret.length - 1]? = some c) := by
  have found : (Scanner.ofText source file).Finds e := by
    rcases failed with scanned | parsed
    · obtain ⟨s', s'', reads, stuck⟩ := tokens_of_tokenize_error scanned
      exact .lexical reads stuck
    · exact parse_finds parsed
  rcases found.inks with ends | ⟨before, c, after, split, place, ink⟩
  · obtain ⟨earlier, lead, whole, within, fed, lies, lined⟩ := Text.exists_lead source.toList
    rw [lies] at ends
    have shown : line? source.toList e.position.point.line = (lines lead).head? := by
      rw [ends, whole]
      exact line?_of_lines_append (lined lead)
    cases lead with
    | nil =>
      have none : line? source.toList e.position.point.line = none := shown
      refine .inl ⟨none, ends.trans lies.symm, ?_, by simp [render, none]⟩
      rwa [whole, List.append_nil]
    | cons d lead =>
      rw [Text.lines_of_unfed within (List.cons_ne_nil d lead), List.head?_cons] at shown
      obtain ⟨indent, text, trail, trims⟩ := exists_trims (d :: lead)
      have short := congrArg List.length trims.whole
      have room : indent < e.position.point.column := by
        rw [ends]
        simp at short ⊢
        omega
      obtain ⟨gutter, caret, pictures⟩ := pictures_of_room shown trims room
      exact .inr ⟨indent, text, trail, gutter, caret, pictures, .inl (ends.trans lies.symm)⟩
  · obtain ⟨earlier, lead, rfl, within, -, lies, lined⟩ := Text.exists_lead before
    rw [lies] at place
    obtain ⟨more, first⟩ := Text.head?_lines within ink after
    have shown : line? source.toList e.position.point.line = some (lead ++ c :: more) := by
      rw [place, split, List.append_assoc, ← first]
      exact line?_of_lines_append (lined _)
    obtain ⟨indent, text, trail, trims⟩ := exists_trims (lead ++ c :: more)
    have room : indent < e.position.point.column := by
      rw [place]
      exact Nat.lt_succ_of_le (trims.indent_le ink)
    obtain ⟨gutter, caret, pictures⟩ := pictures_of_room shown trims room
    refine .inr ⟨indent, text, trail, gutter, caret, pictures, .inr ⟨_, c, after, split,
      place.trans lies.symm, pictures.under shown (by rw [place]) ink⟩⟩

theorem render_points_indented : ∃ e, tokenize "x;\r\n  y = $;" none = .error e ∧
    ∃ indent text trail gutter caret,
      Pictures e "x;\r\n  y = $;" indent text trail gutter caret ∧
      (text[caret.length - 1]?).isSome = true := by
  have failed : tokenize "x;\r\n  y = $;" none =
      .error ⟨.unrecognisedCharacter '$', ⟨⟨2, 7⟩, defaultFile⟩⟩ := by decide +kernel
  refine ⟨_, failed, ?_⟩
  rcases render_points (.inl failed) with ⟨-, ends, -⟩ |
    ⟨indent, text, trail, gutter, caret, pictures, ends | ⟨_, c, _, -, -, under⟩⟩
  · exact absurd ends (by decide +kernel)
  · exact absurd ends (by decide +kernel)
  · exact ⟨indent, text, trail, gutter, caret, pictures, by rw [under]; rfl⟩

end ScriptSyntax
