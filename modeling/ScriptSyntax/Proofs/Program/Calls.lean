import ScriptSyntax.Proofs.Calls.Index

/-! A cursor on a source text counts its tokens. -/
namespace ScriptSyntax

/-- What the source has: these tokens before the end of input, which is there over and over, or
before the error that keeps it from being read on. -/
def HasTokens (source : String) (file : Option String) (ts : List Token) :
    Except Error Token → Prop
  | .ok last => tokenize source file = .ok (ts ++ [last])
  | .error e => (Scanner.ofText source file).tokens = (ts, some e)

variable {source : String} {file : Option String} {ts : List Token} {ending : Except Error Token}

theorem HasTokens.draws (has : HasTokens source file ts ending) :
    (Scanner.ofText source file).Draws (supply ts ending) 0 := by
  cases ending with
  | ok last => exact Scanner.draws_of_tokenize has
  | error e => exact Scanner.draws_of_error has

theorem HasTokens.start_error {e : Error} (has : HasTokens source file ts ending)
    (none : supply ts ending 0 = .error e) : Cursor.start source file = .error e := by
  rw [← has.draws 0, Scanner.nth] at none
  rw [Cursor.start]
  rcases read : (Scanner.ofText source file).next with ⟨e' | t, s⟩
  · rw [read] at none
    cases none
    rfl
  · simp [read] at none

theorem HasTokens.start_ok {first : Token} (has : HasTokens source file ts ending)
    (some : supply ts ending 0 = .ok first) :
    ∃ c, Cursor.start source file = .ok c ∧
      c.Tracks ⟨file.getD defaultFile, supply ts ending, 0⟩ :=
  Cursor.start_tracks has.draws some

/-- Whatever is asked of a cursor, through the first error of the characters that it meets, its
answers are those of an index into the tokens. At most `maxLookahead` tokens are pending, the arena
stays as it is, and to ask for a token that is not there changes nothing that can be seen. -/
theorem cursor_counts (has : HasTokens source file ts ending) :
    match supply ts ending 0 with
    | .error e => Cursor.start source file = .error e
    | .ok _ => ∃ c, Cursor.start source file = .ok c ∧ ∀ calls : List Call,
      c.Meets (answers Cursor.answer calls c)
        (answers Index.answer calls ⟨file.getD defaultFile, supply ts ending, 0⟩) ∧
      ∀ (call : Call) (e : Error) (d : Cursor), (call matches .eat _ | .eatAny _) →
        (answers Cursor.answer calls c).2.answer call = (.error e, d) →
        d.current = (answers Cursor.answer calls c).2.current ∧
          d.pending = (answers Cursor.answer calls c).2.pending ∧
          d.arena = (answers Cursor.answer calls c).2.arena := by
  cases first : supply ts ending 0 with
  | error e => exact has.start_error first
  | ok t =>
    obtain ⟨c, started, tracks⟩ := has.start_ok first
    exact ⟨c, started, fun calls =>
      ⟨tracks.answers calls, fun call e d eats => Cursor.answer_error_keeps eats⟩⟩

theorem cursor_counts_unclosed : ∃ ts e, HasTokens "x = \x27" none ts (.error e) ∧
    ∃ c, Cursor.start "x = \x27" none = .ok c ∧ ∀ calls : List Call,
      c.Meets (answers Cursor.answer calls c)
        (answers Index.answer calls ⟨defaultFile, supply ts (.error e), 0⟩) := by
  have read : (Scanner.ofText "x = \x27" none).tokens.1.length = 2 ∧
      (Scanner.ofText "x = \x27" none).tokens.2.isSome = true := by decide +kernel
  rcases scanned : (Scanner.ofText "x = \x27" none).tokens with ⟨_ | ⟨t, ts⟩, _ | e⟩
  all_goals simp [scanned] at read
  have has : HasTokens "x = \x27" none (t :: ts) (.error e) := scanned
  obtain ⟨c, started, met⟩ := cursor_counts has
  exact ⟨t :: ts, e, has, c, started, fun calls => (met calls).1⟩

end ScriptSyntax
