import ScriptSyntax.Proofs.Scan.Lexing

/-! Tokenizing undoes rendering. Tokens that fit one after the other are written with gaps between
them that begin with a blank, and are read back as they were; and what is read always fits. -/
namespace ScriptSyntax

open Lexeme (Written WellFormed Fits)

namespace Scanner

/-- The texts that tokens may be written as. -/
inductive Renders : List Lexeme → List Char → Prop where
  | nil : Renders [] []
  | single {l : Lexeme} {chars : List Char} (written : Written l chars) : Renders [l] chars
  | cons {l m : Lexeme} {ls : List Lexeme} {chars gap text : List Char} {c : Char}
      (written : Written l chars) (blank : Text.isBlank c = true) (separates : Gap false gap)
      (later : Renders (m :: ls) text) : Renders (l :: m :: ls) (chars ++ c :: (gap ++ text))

variable {s s' : Scanner} {ts : List Token} {l : Lexeme} {ls : List Lexeme}
  {chars gap text rest : List Char} {final : Bool}

/-- A token that fits is read behind a gap. -/
theorem next_of_fits (fits : l.Fits s.previous) (written : Written l chars) (ends : Ends rest)
    (skipped : Gap false gap) (split : s.rest = gap ++ (chars ++ rest)) :
    ∃ t, s.next = (.ok t, ⟨s.file, rest, s.point.advance (gap ++ chars), some l.kind⟩) ∧
      t.lexeme = l := by
  obtain ⟨some, inked⟩ := fits.inked written
  have skip := skipped.skipGap nofun (inked.append some ends) s.point
  rw [next, split, skip]
  simp only [fits.read written ends, Reading.token, Point.advance_append]
  exact ⟨_, rfl, rfl⟩

theorem next_of_gap (skipped : Gap final s.rest) :
    ∃ t s', s.next = (.ok t, s') ∧ t.lexeme = ⟨.eof, ""⟩ := by
  have inked : Inked [] := ⟨by simp, by simp, by simp⟩
  have skip := skipped.skipGap (fun _ => rfl) inked s.point
  rw [List.append_nil] at skip
  rw [next, skip]
  exact ⟨_, _, rfl, rfl⟩

theorem Renders.emits (renders : Renders ls text) (fit : WellFormed s.previous ls)
    (skipped : Gap false gap) (split : s.rest = gap ++ text) :
    ∃ ts s', s.Emits ts s' ∧ ts.map Token.lexeme = ls ++ [⟨.eof, ""⟩] := by
  induction renders generalizing s gap with
  | nil =>
    rw [List.append_nil] at split
    obtain ⟨t, s', read, same⟩ := next_of_gap (split ▸ skipped)
    exact ⟨[t], s', .cons read .nil, by simp [same]⟩
  | @single l chars written =>
    rw [← List.append_nil chars] at split
    obtain ⟨t, read, same⟩ := next_of_fits fit.1 written .nil skipped split
    obtain ⟨last, s', stop, eof⟩ := @next_of_gap ⟨s.file, [], _, some l.kind⟩ false .nil
    exact ⟨[t, last], s', .cons read (.cons stop .nil), by simp [same, eof]⟩
  | @cons l m ls chars gap' text c written blank separates later ih =>
    have ends : Ends (c :: (gap' ++ text)) := fun d first => by
      cases first
      exact blank
    obtain ⟨t, read, same⟩ := next_of_fits fit.1 written ends skipped split
    obtain ⟨ts, s', reads, tokens⟩ := @ih ⟨s.file, c :: (gap' ++ text), _, some l.kind⟩ (c :: gap')
      fit.2 (.blank blank separates) rfl
    exact ⟨t :: ts, s', .cons read reads, by simp [same, tokens]⟩

theorem Emits.wellFormed (reads : s.Emits ts s') (more : ∀ t ∈ ts, t.kind ≠ .eof) :
    WellFormed s.previous (ts.map Token.lexeme) := by
  induction reads with
  | nil => trivial
  | @cons s s' s'' t ts given later ih =>
    obtain ⟨inner, others⟩ := List.forall_mem_cons.mp more
    obtain ⟨-, -, -, -, -, -, kind, -, eof | fits⟩ := next_lexeme given
    · exact absurd (congrArg Lexeme.kind eof.1) inner
    · exact ⟨fits, kind ▸ ih others⟩

end Scanner

theorem Lexeme.WellFormed.ne_eof {previous : Option Kind} {ls : List Lexeme}
    (fit : WellFormed previous ls) : ∀ l ∈ ls, l.kind ≠ .eof := by
  induction ls generalizing previous with
  | nil => simp
  | cons l ls ih => exact List.forall_mem_cons.mpr ⟨fit.1.ne_eof, ih fit.2⟩

theorem tokenize_of_renders {ls : List Lexeme} {text : List Char} {file : Option String}
    (fit : WellFormed none ls) (renders : Scanner.Renders ls text) :
    ∃ ts, tokenize (String.ofList text) file = .ok ts ∧
      ts.map Token.lexeme = ls ++ [⟨.eof, ""⟩] := by
  obtain ⟨all, s', reads, same⟩ := renders.emits (s := .ofText (String.ofList text) file) fit
    .nil (by simp [Scanner.ofText])
  obtain ⟨ts, lasts, rfl, inner, final⟩ := List.map_eq_append_iff.mp same
  obtain ⟨last, rfl, eof⟩ := List.map_eq_singleton_iff.mp final
  refine ⟨_, reads.tokenize (fun t member => ?_) (congrArg Lexeme.kind eof), same⟩
  exact fit.ne_eof t.lexeme (inner ▸ List.mem_map_of_mem member)

theorem wellFormed_of_tokenize {source : String} {file : Option String} {ts : List Token}
    (ok : tokenize source file = .ok ts) :
    WellFormed none ((ts.filter (·.kind ≠ .eof)).map Token.lexeme) := by
  obtain ⟨inner, last, s', rfl, more, eof, reads⟩ := Scanner.emits_of_tokenize ok
  obtain ⟨_, first, -⟩ := reads.exists_of_append
  have kept : (inner ++ [last]).filter (·.kind ≠ .eof) = inner := by
    rw [List.filter_append, List.filter_eq_self.mpr (by simpa using more)]
    simp [eof]
  rw [kept]
  exact first.wellFormed more

/-- Every text that well-formed tokens are written as is read back to those tokens, and no others
are read from any text. -/
theorem tokenize_renders :
    (∀ (ls : List Lexeme) (text : List Char) (file : Option String), WellFormed none ls →
      Scanner.Renders ls text → ∃ ts, tokenize (String.ofList text) file = .ok ts ∧
        ts.map Token.lexeme = ls ++ [⟨.eof, ""⟩]) ∧
    ∀ (source : String) (file : Option String) (ts : List Token), tokenize source file = .ok ts →
      WellFormed none ((ts.filter (·.kind ≠ .eof)).map Token.lexeme) :=
  ⟨fun _ _ _ => tokenize_of_renders, fun _ _ _ => wellFormed_of_tokenize⟩

theorem tokenize_renders_difference :
    ∃ ts, tokenize (String.ofList "1 /**/- -2".toList) none = .ok ts ∧
      ts.map Token.lexeme =
        [⟨.intVal, "1"⟩, ⟨.subtract, "-"⟩, ⟨.intVal, "-2"⟩] ++ [⟨.eof, ""⟩] := by
  have first : Fits none ⟨.intVal, "1"⟩ :=
    .int .none (List.cons_ne_nil '1' []) (by simp [Lexeme.Digits])
  have second : Fits (some .intVal) ⟨.subtract, "-"⟩ := .spelled (by decide) (by decide)
  have third : Fits (some .subtract) ⟨.intVal, "-2"⟩ :=
    .int (.minus (by decide)) (List.cons_ne_nil '2' []) (by simp [Lexeme.Digits])
  refine tokenize_renders.1 _ _ none ⟨first, second, third, trivial⟩ ?_
  have apart : Text.isBlank ' ' = true := by decide
  exact .cons (.plain (by decide)) apart (.block [] .nil .nil)
    (.cons (.plain (by decide)) apart .nil (.single (.plain (by decide))))

end ScriptSyntax
