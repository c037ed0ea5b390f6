import ScriptSyntax.Proofs.Program.Accepted
import ScriptSyntax.Proofs.Progress.Run
import ScriptSyntax.Proofs.Scan.Lexeme

/-! What a program fails with. An error of a parse is the one that its tokens end in, or lies in
their order and at the start of one of them. -/
namespace ScriptSyntax

/-- Whether the error is one of the order of tokens, at the start of one of these. -/
def Error.LiesAt (e : Error) (file : Option String) (ts : List Token) : Prop :=
  e.fault.faultClass = .syntactic ∧ ∃ t ∈ ts, e.position = ⟨t.span.start, file.getD defaultFile⟩

variable {source : String} {file : Option String} {ts : List Token} {e e' : Error}

theorem tokens_of_tokenize_error (failed : tokenize source file = .error e) :
    ∃ s' s'', (Scanner.ofText source file).Emits (Scanner.ofText source file).tokens.1 s' ∧
      s'.next = (.error e, s'') := by
  unfold tokenize at failed
  split at failed
  · contradiction
  · next given =>
    cases failed
    exact given ▸ (Scanner.emits_of_tokensWithin_error given).2

namespace Scanner.Finds

/-- Where the tokens end in an error, it is the only one of the characters to be found. -/
theorem of_tokenize_error (found : (Scanner.ofText source file).Finds e')
    (failed : tokenize source file = .error e) :
    e' = e ∨ e'.LiesAt file (Scanner.ofText source file).tokens.1 := by
  obtain ⟨s', s'', reads, stuck⟩ := tokens_of_tokenize_error failed
  cases found with
  | lexical reads' stuck' =>
    have same := (reads.prefix_of_error stuck reads').eq_of_length_le
      (reads'.prefix_of_error stuck' reads).length_le
    subst same
    obtain rfl := reads.unique reads'
    rw [stuck] at stuck'
    cases stuck'
    exact .inl rfl
  | syntactic reads' member fault place =>
    exact .inr ⟨fault.syntactic, _, (reads.prefix_of_error stuck reads').subset member, place⟩

/-- Where the tokens reach the end of input, no error of the characters is to be found. -/
theorem of_tokenize (found : (Scanner.ofText source file).Finds e')
    (ok : tokenize source file = .ok ts) : e'.LiesAt file ts := by
  obtain ⟨inner, last, s', rfl, -, eof, reads⟩ := emits_of_tokenize ok
  obtain ⟨middle, before, tail⟩ := reads.exists_of_append
  cases tail with
  | cons given done =>
    cases done
    cases found with
    | lexical reads' stuck =>
      obtain ⟨more, rfl⟩ := reads'.prefix_of_error stuck reads
      obtain ⟨again, first, later⟩ := reads'.exists_of_append
      obtain rfl := reads.unique first
      obtain ⟨rfl, -⟩ := Emits.after_eof given eof later
      simp [next_eof given eof] at stuck
    | @syntactic us _ t reads' member fault place =>
      refine ⟨fault.syntactic, t, ?_, place⟩
      rcases reads.prefix_total reads' with ⟨more, rfl⟩ | shorter
      · obtain ⟨again, first, later⟩ := reads'.exists_of_append
        obtain rfl := reads.unique first
        obtain ⟨-, repeated⟩ := Emits.after_eof given eof later
        rcases List.mem_append.mp member with inside | past
        · exact inside
        · simp [repeated t past]
      · exact shorter.subset member

end Scanner.Finds

theorem block_proceeds (stops : List Kind) (kind : Kind) :
    (Grammar.block stops).Proceeds 4 false kind fun _ _ _ => True := by
  simp [Grammar.block, Rule.rank]

/-- An error of a parse is found in the source. -/
theorem parse_finds (failed : parse source file = .error e) :
    (Scanner.ofText source file).Finds e := by
  simp only [parse, parseTraced] at failed
  split at failed
  · next started =>
    cases failed
    simp only [Cursor.start] at started
    split at started
    · contradiction
    · next read =>
      cases started
      exact .lexical .nil read
  next c started =>
  have follows : c.Follows (.ofText source file) := ⟨[], (Cursor.start_at started).reads⟩
  have ends := follows.run (block_proceeds [.eof] c.current.kind)
  split at failed
  · contradiction
  next stuck =>
  simp only [Cursor.program, Cursor.run] at stuck
  cases failed
  rcases ends with ⟨block, c', ran, -⟩ | ⟨e', c', ran, found⟩
  · simp [ran] at stuck
  · rw [ran] at stuck
    cases stuck
    exact found

/-- Parsing and tokenizing agree on what is wrong with a source. -/
theorem parse_agrees (source : String) (file : Option String) :
    (∀ a, parse source file = .ok a → ∃ ts, tokenize source file = .ok ts) ∧
    (∀ e, tokenize source file = .error e → ∃ e', parse source file = .error e' ∧
      (e' = e ∨ e'.LiesAt file (Scanner.ofText source file).tokens.1)) ∧
    (∀ ts, tokenize source file = .ok ts → (∃ a, parse source file = .ok a) ∨
      ∃ e, parse source file = .error e ∧ e.LiesAt file ts) ∧
    ∀ e depth, parse source file = .error e → e.fault ≠ .lookaheadExceeded depth := by
  have accepts : ∀ a, parse source file = .ok a → ∃ ts, tokenize source file = .ok ts := by
    intro a accepted
    obtain ⟨ts, last, b, t, facts, -⟩ := parse_accepted accepted
    exact ⟨_, facts.tokens⟩
  refine ⟨accepts, fun e failed => ?_, fun ts ok => ?_, fun e depth failed => ?_⟩
  · cases parsed : parse source file with
    | ok a =>
      obtain ⟨ts, ok⟩ := accepts a parsed
      simp [failed] at ok
    | error e' => exact ⟨e', rfl, (parse_finds parsed).of_tokenize_error failed⟩
  · cases parsed : parse source file with
    | ok a => exact .inl ⟨a, rfl⟩
    | error e => exact .inr ⟨e, rfl, (parse_finds parsed).of_tokenize ok⟩
  · cases parse_finds failed with
    | lexical reads stuck =>
      intro exceeded
      have lexical := Scanner.next_error stuck
      rw [exceeded] at lexical
      contradiction
    | syntactic reads member fault place => exact fault.ne_lookaheadExceeded depth

theorem parse_agrees_unclosed : ∃ e, tokenize "x = \x27" none = .error e ∧
    ∃ e', parse "x = \x27" none = .error e' ∧
      (e' = e ∨ e'.LiesAt none (Scanner.ofText "x = \x27" none).tokens.1) := by
  have failed : (tokenize "x = \x27" none).toBool = false := by decide +kernel
  cases scanned : tokenize "x = \x27" none with
  | ok ts => simp [scanned, Except.toBool] at failed
  | error e => exact ⟨e, rfl, (parse_agrees "x = \x27" none).2.1 e scanned⟩

end ScriptSyntax
