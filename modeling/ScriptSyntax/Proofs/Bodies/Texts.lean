import ScriptSyntax.Proofs.Bodies.Seam
import ScriptSyntax.Proofs.Enclosure.Texts

/-! Texts with an empty body written either way between the same tokens. The line feed behind the
body puts the tokens after it at the same places. -/
namespace ScriptSyntax

open Lexeme (WellFormed)

namespace Lexeme

variable {previous : Option Kind} {l : Lexeme}

/-- An empty body in one token, or in two. -/
def braces (fused : Bool) : List Lexeme :=
  if fused then [sign .mapType] else [sign .scopeOpen, sign .scopeClose]

/-- What a token is that is neither a name nor a literal is told by its kind. -/
theorem Fits.eq_sign (fits : l.Fits previous)
    (plain : l.kind ∉ [.var, .intVal, .realVal, .strVal]) : l = ⟨l.kind, l.kind.spelling⟩ := by
  cases fits with
  | spelled own written => rfl
  | _ => simp at plain

end Lexeme

/-- Empty braces among the tokens of a source. -/
theorem EmptyBraces.lexemes {front ts after : List Token} (empty : EmptyBraces ts)
    (fit : WellFormed none ((front ++ (ts ++ after)).map Token.lexeme)) :
    WellFormed none (front.map Token.lexeme) ∧ WellFormed (some .mapType) (after.map Token.lexeme) ∧
      ∃ fused, ts.map Token.lexeme = Lexeme.braces fused := by
  have spelled {t : Token} {k : Kind} {previous : Option Kind} (fits : t.lexeme.Fits previous)
      (is : t.kind = k) (plain : k ∉ [.var, .intVal, .realVal, .strVal]) :
      t.lexeme = ⟨k, k.spelling⟩ := by
    subst is
    exact fits.eq_sign plain
  rw [List.map_append, List.map_append] at fit
  obtain ⟨before, previous, fit⟩ := Lexeme.wellFormed_append fit
  refine ⟨before, ?_⟩
  rcases empty with @⟨token, kind⟩ | @⟨opener, closer, opens, closes⟩
  · have braces : token.lexeme = ⟨.mapType, _⟩ := spelled fit.1 kind (by decide)
    exact ⟨kind ▸ fit.2, true, congrArg (fun l => [l]) braces⟩
  · have first : opener.lexeme = ⟨.scopeOpen, _⟩ := spelled fit.1 opens (by decide)
    have second : closer.lexeme = ⟨.scopeClose, _⟩ := spelled fit.2.1 closes (by decide)
    have behind : WellFormed (some closer.kind) (after.map Token.lexeme) := fit.2.2
    refine ⟨behind.congr ?_, false, congrArg₂ (fun l m => [l, m]) first second⟩
    rw [closes]
    rfl

namespace Scanner

variable {s s' r : Scanner} {ts : List Token} {t : Token} {name : String} {rest : List Char}
  {p : Point}

/-- Whether the scanner gives what the other one does, and goes on from there as that one. -/
def Resumes (s s' : Scanner) : Prop := ∀ {t r}, s'.next = (.ok t, r) → s.next = (.ok t, r)

theorem Resumes.emits (resumes : s.Resumes s') (reads : s'.Emits (t :: ts) r) :
    s.Emits (t :: ts) r := by
  cases reads with | cons read later
  exact .cons (resumes read) later

/-- A spelling before a blank is read where it stands. -/
theorem next_spelling {k : Kind} (own : k.isSynthetic = false) (written : k.spelling ≠ "")
    (left : s.rest = k.spelling.toList ++ rest) (ends : Ends rest) :
    ∃ t, s.next = (.ok t, ⟨s.file, rest, s.point.advance k.spelling.toList, some k⟩) ∧
      t.lexeme = ⟨k, k.spelling⟩ :=
  next_of_fits (.spelled own written) (Lexeme.Written.spelled written) ends .nil left

theorem Ends.cons {c : Char} (blank : Text.isBlank c = true) : Ends (c :: rest) := by
  rintro d ⟨⟩
  exact blank

/-- Empty braces before a line feed leave the scanner on the next line, whichever way they are
written. -/
theorem exists_braces (fused : Bool) (name : String) (rest : List Char) (p : Point)
    (previous : Option Kind) : ∃ text vs s',
      Scanner.Emits ⟨name, text ++ '\n' :: rest, p, previous⟩ vs s' ∧ EmptyBraces vs ∧
      vs.map Token.lexeme = Lexeme.braces fused ∧
      s'.Resumes ⟨name, rest, ⟨p.line + 1, 1⟩, some .mapType⟩ := by
  have feed : Gap false ['\n'] := .blank (by decide) .nil
  have ends : Ends ('\n' :: rest) := .cons (by decide)
  cases fused with
  | true =>
    let s : Scanner := ⟨name, Kind.mapType.spelling.toList ++ '\n' :: rest, p, previous⟩
    obtain ⟨t, read, lexeme⟩ := @next_spelling s _ .mapType rfl (by decide) rfl ends
    exact ⟨_, [t], _, .cons read .nil, .fused (congrArg Lexeme.kind lexeme),
      congrArg (fun l => [l]) lexeme, fun given => (next_skip rfl feed).trans given⟩
  | false =>
    let inner : List Char := Kind.scopeClose.spelling.toList ++ '\n' :: rest
    let s : Scanner := ⟨name, Kind.scopeOpen.spelling.toList ++ ' ' :: inner, p, previous⟩
    have apart : Gap false [' '] := .blank (by decide) .nil
    obtain ⟨opener, read, lexeme⟩ :=
      @next_spelling s _ .scopeOpen rfl (by decide) rfl (.cons (by decide))
    let s' : Scanner := ⟨name, inner, p.advance [' ', ' '], some .scopeOpen⟩
    obtain ⟨closer, read', lexeme'⟩ := @next_spelling s' _ .scopeClose rfl (by decide) rfl ends
    have skipped : (Scanner.mk name (' ' :: inner) (p.advance [' ']) (some .scopeOpen)).next =
        s'.next := next_skip rfl apart
    let end' : Scanner := ⟨name, '\n' :: rest, p.advance [' ', ' ', ' '], some .scopeClose⟩
    have behind : end'.next =
        (Scanner.mk name rest ⟨p.line + 1, 1⟩ (some .scopeClose)).next := next_skip rfl feed
    refine ⟨Kind.scopeOpen.spelling.toList ++ ' ' :: Kind.scopeClose.spelling.toList,
      [opener, closer], _, .cons read (.cons (skipped.trans read') .nil),
      .apart (congrArg Lexeme.kind lexeme) (congrArg Lexeme.kind lexeme'),
      congrArg₂ (fun l m => [l, m]) lexeme lexeme', ?_⟩
    exact fun given => behind.trans (next_previous given rfl)

/-- There are texts with an empty body written either way between the same tokens. -/
theorem exists_texts {ls ms : List Lexeme} (fit : WellFormed none ls)
    (fit' : WellFormed (some .mapType) ms) : ∃ ts us last, ts.map Token.lexeme = ls ∧
      us.map Token.lexeme = ms ∧ last.lexeme = ⟨.eof, ""⟩ ∧ ∀ fused, ∃ source vs,
        EmptyBraces vs ∧ vs.map Token.lexeme = Lexeme.braces fused ∧
        tokenize source none = .ok (ts ++ (vs ++ us) ++ [last]) := by
  obtain ⟨_, lexed, whole⟩ := @tokenize_of_renders _ _ none fit fit.renders
  obtain ⟨ts, _, rfl, same, tail⟩ := List.map_eq_append_iff.mp whole
  obtain ⟨_, rfl, -⟩ := List.map_eq_singleton_iff.mp tail
  obtain ⟨more, eof, seam, _, first, given⟩ := ends_of_tokenize lexed
  obtain ⟨p, feeds⟩ := next_feed given eof
  let name := (ofText (String.ofList (Lexeme.spaced ls)) none).file
  let s : Scanner := ⟨name, Lexeme.spaced ms, ⟨p.line + 1, 1⟩, some .mapType⟩
  obtain ⟨_, s', others, whole'⟩ := @Renders.emits s _ [] _ fit'.renders fit' .nil rfl
  obtain ⟨us, _, rfl, proper, tail⟩ := List.map_eq_append_iff.mp whole'
  obtain ⟨last, rfl, final⟩ := List.map_eq_singleton_iff.mp tail
  refine ⟨ts, us, last, same, proper, final, fun fused => ?_⟩
  obtain ⟨text, vs, s'', inner, empty, lexemes, resumes⟩ :=
    exists_braces fused name (Lexeme.spaced ms) p seam.previous
  let after := text ++ '\n' :: Lexeme.spaced ms
  let source := String.ofList (Lexeme.spaced ls ++ '\n' :: after)
  have whole : ofText source none =
      (ofText (String.ofList (Lexeme.spaced ls)) none).before name ('\n' :: after) := by
    simp [ofText, Scanner.before, name, source]
  have blank : Ends ('\n' :: after) := .cons (by decide)
  have first := whole ▸ blank.emits_before first more
  have body : (seam.before name ('\n' :: after)).Emits vs s'' := by
    cases vs with
    | nil => cases empty
    | cons v vs => exact Resumes.emits (fun given => (feeds name after).trans given) inner
  have rest : s''.Emits (us ++ [last]) s' := by
    cases us with
    | nil => exact resumes.emits others
    | cons u us => exact resumes.emits others
  refine ⟨source, vs, empty, lexemes, ?_⟩
  have reads := first.append (body.append rest)
  rw [← List.append_assoc vs, ← List.append_assoc] at reads
  refine reads.tokenize ?_ (congrArg Lexeme.kind final)
  refine List.forall_mem_append.mpr ⟨more, List.forall_mem_append.mpr ⟨empty.ne_eof, ?_⟩⟩
  exact fun t member => fit'.ne_eof t.lexeme (proper ▸ List.mem_map_of_mem member)

end Scanner
end ScriptSyntax
