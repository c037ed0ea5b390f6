import Mathlib.Data.List.DropRight
import ScriptSyntax.Proofs.Scan.Lexeme

/-! The tokens of a source cover it: between their written forms are gaps alone, and their spans are
the places of those forms. -/
namespace ScriptSyntax

/-- The place right after a text: a line further for each line feed in it, and a column further for
each character of its last line. -/
def Point.ofPrefix (cs : List Char) : Point :=
  ⟨1 + cs.count '\n', 1 + (cs.rtakeWhile (· ≠ '\n')).length⟩

theorem Point.after_ofPrefix (cs : List Char) (c : Char) :
    (ofPrefix cs).after c = ofPrefix (cs ++ [c]) := by
  by_cases feed : c = '\n'
  · subst feed
    simp [after, ofPrefix, Nat.add_assoc]
  · simp [after, ofPrefix, feed, Nat.add_assoc]

theorem Point.advance_ofPrefix (cs ds : List Char) :
    (ofPrefix cs).advance ds = ofPrefix (cs ++ ds) := by
  induction ds generalizing cs with
  | nil => simp
  | cons d rest ih =>
    rw [advance_cons, after_ofPrefix, ih, List.append_assoc, List.singleton_append]

namespace Scanner

open Lexeme (Written)

/-- The tokens cover a text that stands after `before`, and take up nothing but gaps beside their
written forms. A line comment at the end of the text needs no line feed. -/
inductive Covers : (before : List Char) → List Token → (text : List Char) → Prop where
  | nil {before : List Char} : Covers before [] []
  | cons {before gap chars rest : List Char} {t : Token} {ts : List Token}
      (skipped : Gap (chars ++ rest).isEmpty gap) (written : Written t.lexeme chars)
      (place : t.span = ⟨.ofPrefix (before ++ gap), .ofPrefix (before ++ gap ++ chars)⟩)
      (later : Covers (before ++ gap ++ chars) ts rest) :
      Covers before (t :: ts) (gap ++ (chars ++ rest))

variable {s s' : Scanner} {t last : Token} {ts : List Token} {before : List Char}

theorem Emits.covers (reads : s.Emits ts s') (ends : s'.rest = [])
    (place : s.point = .ofPrefix before) : Covers before ts s.rest := by
  induction reads generalizing before with
  | nil =>
    rw [ends]
    exact .nil
  | @cons s s' s'' t ts given later ih =>
    obtain ⟨gap, written, split, skipped, span, stop, -, form, -⟩ := next_lexeme given
    rw [place, Point.advance_ofPrefix, ← List.append_assoc] at stop
    rw [place, Point.advance_ofPrefix, stop] at span
    rw [split]
    exact .cons skipped form span (ih ends stop)

theorem Emits.lexeme_last (reads : s.Emits (ts ++ [last]) s') (eof : last.kind = .eof) :
    last.lexeme = ⟨.eof, ""⟩ ∧ s'.rest = [] := by
  obtain ⟨middle, -, read⟩ := reads.exists_of_append
  cases read with
  | cons given done =>
    cases done
    obtain ⟨-, -, -, -, -, -, -, -, ends | fits⟩ := next_lexeme given
    · exact ends
    · exact absurd eof fits.ne_eof

theorem Covers.span_last {text : List Char} (covers : Covers before (ts ++ [last]) text)
    (eof : last.lexeme = ⟨.eof, ""⟩) :
    last.span = ⟨.ofPrefix (before ++ text), .ofPrefix (before ++ text)⟩ := by
  induction ts generalizing before text with
  | nil =>
    cases covers with
    | cons skipped written place later =>
      cases later
      rw [eof] at written
      cases written
      simpa using place
  | cons t rest ih =>
    cases covers with
    | cons skipped written place later => simpa using ih later

end Scanner

/-- The tokens of a source are its whole text but for gaps, each at its place, and end in the one
end of input, which stands right after the text. -/
theorem tokenize_covers {source : String} {file : Option String} {ts : List Token}
    (ok : tokenize source file = .ok ts) :
    Scanner.Covers [] ts source.toList ∧
      ∃ inner last, ts = inner ++ [last] ∧ (∀ t ∈ inner, t.kind ≠ .eof) ∧
        last.lexeme = ⟨.eof, ""⟩ ∧
        last.span = ⟨.ofPrefix source.toList, .ofPrefix source.toList⟩ := by
  obtain ⟨inner, last, s', rfl, more, eof, reads⟩ := Scanner.emits_of_tokenize ok
  obtain ⟨empty, ends⟩ := reads.lexeme_last eof
  have covers : Scanner.Covers [] (inner ++ [last]) source.toList := reads.covers ends rfl
  exact ⟨covers, inner, last, rfl, more, empty, covers.span_last empty⟩

theorem tokenize_covers_comments : ∃ ts, tokenize "x /* y */ + \x274\n\x27 // z" none = .ok ts ∧
    Scanner.Covers [] ts "x /* y */ + \x274\n\x27 // z".toList := by
  have ok : (tokenize "x /* y */ + \x274\n\x27 // z" none).toBool = true := by decide +kernel
  cases scanned : tokenize "x /* y */ + \x274\n\x27 // z" none with
  | ok ts => exact ⟨ts, rfl, (tokenize_covers scanned).1⟩
  | error e => simp [scanned, Except.toBool] at ok

end ScriptSyntax
