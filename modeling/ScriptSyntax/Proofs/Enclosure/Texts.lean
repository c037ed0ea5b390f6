import ScriptSyntax.Proofs.Calls.Joined
import ScriptSyntax.Proofs.Enclosure.Beside
import ScriptSyntax.Proofs.Layout.Cursor
import ScriptSyntax.Proofs.Printing.Text
import ScriptSyntax.Proofs.Scan.Covering

/-! Tokens that a source can hold, and how they are followed by a `;` or stand between parentheses.
Two texts that begin with them have them at the same places. -/
namespace ScriptSyntax

namespace Lexeme

variable {previous previous' : Option Kind} {l : Lexeme} {ls ms : List Lexeme}

/-- The token of this number, and from the last one on the end of input. -/
def nth (ls : List Lexeme) (n : Nat) : Lexeme := ls[n]?.getD ⟨.eof, ""⟩

theorem nth_of_lt {n : Nat} (inside : n < ls.length) : nth ls n = ls[n] := by
  simp [nth, inside]

theorem nth_append_of_lt {n : Nat} (inside : n < ls.length) : nth (ls ++ ms) n = nth ls n := by
  rw [nth, nth, List.getElem?_append_left inside]

@[simp] theorem nth_append_add (ls ms : List Lexeme) (n : Nat) :
    nth (ls ++ ms) (ls.length + n) = nth ms n := by
  rw [nth, nth, List.getElem?_append_right (Nat.le_add_right ..), Nat.add_sub_cancel_left]

theorem Fits.congr (fits : l.Fits previous)
    (same : previous'.any Scanner.endsOperand = previous.any Scanner.endsOperand) :
    l.Fits previous' := by
  have signed {sign : List Char} (signed : Sign previous sign) : Sign previous' sign := by
    cases signed with
    | none => exact .none
    | minus free => exact .minus (same.trans free)
  cases fits with
  | spelled own written => exact .spelled own written
  | name starts continues free => exact .name starts continues free
  | int sign some decimal => exact .int (signed sign) some decimal
  | real sign anchored some decimal decimal' =>
    exact .real (signed sign) anchored some decimal decimal'
  | text is apart => exact .text is apart

theorem Fits.eq_eol (fits : l.Fits previous) (stop : l.kind = .eol) : l = sign .eol := by
  cases fits with
  | spelled own written =>
    cases stop
    rfl
  | _ => cases stop

theorem WellFormed.congr (fit : WellFormed previous ls)
    (same : previous'.any Scanner.endsOperand = previous.any Scanner.endsOperand) :
    WellFormed previous' ls := by
  cases ls with
  | nil => trivial
  | cons l ls => exact ⟨fit.1.congr same, fit.2⟩

theorem wellFormed_append : WellFormed previous (ls ++ ms) → WellFormed previous ls ∧
    ∃ k, WellFormed k ms := by
  induction ls generalizing previous with
  | nil => exact fun fit => ⟨trivial, previous, fit⟩
  | cons l ls ih =>
    rintro ⟨fits, later⟩
    obtain ⟨fit, further⟩ := ih later
    exact ⟨⟨fits, fit⟩, further⟩

theorem WellFormed.append (fit : WellFormed previous ls) (later : ∀ k, WellFormed k ms) :
    WellFormed previous (ls ++ ms) := by
  induction ls generalizing previous with
  | nil => exact later previous
  | cons l ls ih => exact ⟨fit.1, ih fit.2⟩

theorem wellFormed_eol (previous : Option Kind) : WellFormed previous [sign .eol] :=
  ⟨.spelled (by decide) (by decide), trivial⟩

theorem wellFormed_close (previous : Option Kind) :
    WellFormed previous [sign .parClose, sign .eol] :=
  ⟨.spelled (by decide) (by decide), wellFormed_eol _⟩

theorem WellFormed.enclose (fit : WellFormed none ls) :
    WellFormed none (Lexeme.enclose false ls) := by
  have opened : WellFormed (some .parOpen) ls := fit.congr rfl
  refine ⟨.spelled (by decide) (by decide), opened.append fun k => ?_⟩
  exact ⟨.spelled (by decide) (by decide), trivial⟩

end Lexeme

open Lexeme (WellFormed)

variable {ls : List Lexeme} {tokens : Nat → Token} {source : String} {file : Option String}
  {ts : List Token}

theorem Token.alike_iff {t u : Token} : t.Alike u ↔ t.lexeme = u.lexeme := by
  simp [Token.Alike, Token.unplaced, Token.lexeme]

/-- A source whose tokens are told by what they are has its end behind the last one. -/
theorem endsAt_of_lexemes (same : ∀ n, (tokens n).lexeme = Lexeme.nth ls n)
    (fit : WellFormed none ls) : EndsAt tokens ls.length := by
  intro i
  have kind : (tokens i).kind = (Lexeme.nth ls i).kind := congrArg Lexeme.kind (same i)
  rw [kind, Lexeme.nth]
  rcases Nat.lt_or_ge i ls.length with inside | outside
  · simp [inside, fit.ne_eof _ (List.getElem_mem inside)]
  · simp [outside]

theorem Scanner.gives_lexemes (lexed : tokenize source file = .ok ts)
    (same : ts.map Token.lexeme = ls ++ [⟨.eof, ""⟩]) :
    ∃ tokens, (ofText source file).Gives tokens ∧ ∀ n, (tokens n).lexeme = Lexeme.nth ls n := by
  obtain ⟨us, last, -, rfl, -⟩ := emits_of_tokenize lexed
  rw [List.map_append, List.map_singleton] at same
  obtain ⟨rfl, final⟩ := List.append_inj' same rfl
  refine ⟨_, gives_of_tokenize lexed, fun n => ?_⟩
  rw [Lexeme.nth, ← (List.cons.inj final).1, List.getElem?_map, Option.getD_map]

theorem Scanner.fits_of_tokenize {last : Token}
    (lexed : tokenize source file = .ok (ts ++ [last])) :
    WellFormed none (ts.map Token.lexeme) ∧ last.lexeme = ⟨.eof, ""⟩ := by
  obtain ⟨more, eof, _, _, first, given⟩ := ends_of_tokenize lexed
  exact ⟨first.wellFormed more, ((first.snoc given).lexeme_last eof).1⟩

/-- The tokens of a source that ends with a `;`. -/
theorem Scanner.lexemes_of_tokenize {semi last : Token}
    (lexed : tokenize source file = .ok (ts ++ [semi, last])) (stop : semi.kind = .eol) :
    WellFormed none (ts.map Token.lexeme) ∧ (ts ++ [semi, last]).map Token.lexeme =
      ts.map Token.lexeme ++ [.sign .eol] ++ [⟨.eof, ""⟩] := by
  rw [List.append_cons] at lexed
  obtain ⟨fit, eof⟩ := fits_of_tokenize lexed
  rw [List.map_append] at fit
  obtain ⟨fit, k, fits, -⟩ := Lexeme.wellFormed_append fit
  have eol : semi.lexeme = .sign .eol := fits.eq_eol stop
  exact ⟨fit, by simp [eol, eof]⟩

/-- What is written behind the tokens of a text leaves these as they are. -/
theorem Scanner.exists_gives_append {ms : List Lexeme} {last : Token}
    (lexed : tokenize source file = .ok (ts ++ [last])) (fit : WellFormed none ms)
    (plain : (Lexeme.nth ms 0).kind ∉ [.intVal, .realVal]) : ∃ whole tokens,
      (ofText whole file).Gives tokens ∧ (∀ i (inside : i < ts.length), tokens i = ts[i]) ∧
        ∀ n, (tokens n).lexeme = Lexeme.nth (ts.map Token.lexeme ++ ms) n := by
  obtain ⟨us, lexed', same⟩ := @tokenize_of_renders _ _ none fit fit.renders
  obtain ⟨others, gives, given⟩ := gives_lexemes lexed' same
  have positive : (others 0).isNegative = false := by
    have kind : (others 0).kind = (Lexeme.nth ms 0).kind := congrArg Lexeme.kind (given 0)
    simp only [Token.isNegative, kind, List.contains_eq_mem, plain, decide_false, Bool.false_and]
  obtain ⟨tokens, gives', inside, past⟩ := gives_joined lexed gives (.inr (.inr positive)) file
  refine ⟨_, tokens, gives', inside, fun n => ?_⟩
  rcases Nat.lt_or_ge n ts.length with before | behind
  · have before' : n < (ts.map Token.lexeme).length := by simpa using before
    rw [inside n before, Lexeme.nth_append_of_lt before', Lexeme.nth_of_lt before',
      List.getElem_map]
  · obtain ⟨m, rfl⟩ := Nat.exists_eq_add_of_le behind
    rw [Token.alike_iff.mp (past m), given, ← List.length_map Token.lexeme, Lexeme.nth_append_add]

/-- There are texts with a `;` and with a `)` and a `;` behind the same tokens. -/
theorem exists_enclosure (fit : WellFormed none ls) :
    ∃ (x : Enclosure) (source source' : String), x.size = ls.length ∧
      (Scanner.ofText source none).Gives x.short ∧ (Scanner.ofText source' none).Gives x.long ∧
      (∀ n, (x.short n).lexeme = Lexeme.nth (ls ++ [.sign .eol]) n) ∧
      ∀ n, (x.long n).lexeme = Lexeme.nth (ls ++ [.sign .parClose, .sign .eol]) n := by
  obtain ⟨ws, lexed, same⟩ := @tokenize_of_renders _ _ none fit fit.renders
  obtain ⟨ts, last, -, rfl, -⟩ := Scanner.emits_of_tokenize lexed
  rw [List.map_append, List.map_singleton] at same
  obtain ⟨rfl, -⟩ := List.append_inj' same rfl
  obtain ⟨source, short, gives, first, lexemes⟩ :=
    Scanner.exists_gives_append lexed (Lexeme.wellFormed_eol none) (by decide)
  obtain ⟨source', long, gives', second, lexemes'⟩ :=
    Scanner.exists_gives_append lexed (Lexeme.wellFormed_close none) (by decide)
  have seam (ms : List Lexeme) : Lexeme.nth (ts.map Token.lexeme ++ ms) ts.length =
      Lexeme.nth ms 0 := by
    simpa using Lexeme.nth_append_add (ts.map Token.lexeme) ms 0
  refine ⟨⟨⟨short, long, ts.length, fun i inside => ?_⟩, ?_, ?_, ?_⟩, source, source', by simp,
    gives, gives', lexemes, lexemes'⟩
  · rw [first i inside, second i inside]
  · simpa using endsAt_of_lexemes lexemes (fit.append Lexeme.wellFormed_eol)
  · exact congrArg Lexeme.kind ((lexemes ts.length).trans (seam _))
  · exact congrArg Lexeme.kind ((lexemes' ts.length).trans (seam _))

end ScriptSyntax
