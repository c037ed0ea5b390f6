import ScriptSyntax.Proofs.Program.Accepted
import ScriptSyntax.Proofs.Progress.Consumed
import ScriptSyntax.Proofs.Progress.Routine

/-! How much of a source is taken. No function of the grammar gets past the end of input, no loop
stays where it is, and so every source is parsed to an end. -/
namespace ScriptSyntax

namespace Scanner

variable {s s' : Scanner} {ts us : List Token}

/-- What a scanner gives before the end of input are the tokens that it is asked for as a whole. -/
theorem Emits.prefix_tokens (reads : s.Emits us s') (before : ts <+: us)
    (more : ∀ t ∈ ts, t.kind ≠ .eof) : ts <+: s.tokens.1 := by
  rcases given : s.tokens with ⟨vs, _ | e⟩
  · obtain ⟨inner, last, _, rfl, -, eof, whole⟩ := emits_of_tokensWithin (Nat.lt_succ_self _) given
    rcases reads.prefix_total whole with shorter | longer
    · exact before.trans shorter
    rcases List.prefix_or_prefix_of_prefix before longer with within | past
    · exact within
    · exact absurd eof (more last (past.subset (by simp)))
  · obtain ⟨-, _, _, whole, stuck⟩ := emits_of_tokensWithin_error given
    exact before.trans (whole.prefix_of_error stuck reads)

end Scanner

variable {source : String} {file : Option String} {c : Cursor} {ts : List Token}

/-- What lies ahead where a source begins are its tokens. -/
theorem Cursor.Faces.prefix_tokens (faces : c.Faces ts) (started : start source file = .ok c)
    (more : ∀ t ∈ ts, t.kind ≠ .eof) : ts <+: (Scanner.ofText source file).tokens.1 := by
  obtain ⟨us, s, reads, before⟩ := faces
  have whole := (start_at started).reads.append reads
  exact whole.prefix_tokens (by simpa using before) more

/-- A parse of a source is the run of its block, where that begins at all. -/
theorem parse_of_start (started : Cursor.start source file = .ok c) : parse source file =
    (c.run (Grammar.block [.eof])).1.map (c.run (Grammar.block [.eof])).2.arena.setRoot := by
  rw [parse, parseTraced, started]
  simp only [Cursor.program]
  rcases c.run (Grammar.block [.eof]) with ⟨e | b, d⟩ <;> rfl

/-- Wherever a function of the grammar is called, its run ends, and it takes the tokens ahead, of
which none is the end of input. A statement, a directive, a term, a collection, a construct or a
type that is read takes a token, and so does each round of a loop that is followed by another one.
A source is parsed to an end, and no more tokens are taken than it has before the end of input. -/
theorem parse_progresses :
    (∀ {α : Type} {p : Parse α} {takes : Bool} (c : Cursor),
        Grammar.Routine c.current.kind p takes →
      (∀ depth, c.depth ≤ depth → p.exec (Rule.run depth) c.point c = some (c.run p)) ∧
      c.Faces (c.consumed p) ∧ (∀ t ∈ c.consumed p, t.kind ≠ .eof) ∧
      ∀ a d, c.run p = (.ok a, d) →
        c.Takes (c.consumed p) d ∧ (takes = true → c.consumed p ≠ [])) ∧
    (∀ {y : Yield} {rule next : Rule y} {depth : Nat} {c d : Cursor} {ts : List Token}
      {rest : y.Value → Parse y.Value}, rule.Repeats next →
      rule.body.Comes depth c ts (.step (.call next) rest) d →
      c.Takes ts d ∧ (∀ t ∈ ts, t.kind ≠ .eof) ∧ ts ≠ []) ∧
    ∀ (source : String) (file : Option String),
      (∃ e, Cursor.start source file = .error e ∧ parse source file = .error e) ∨
      ∃ c r, Cursor.start source file = .ok c ∧
        (∀ depth, c.depth ≤ depth →
          (Grammar.block [.eof]).exec (Rule.run depth) c.point c = some r) ∧
        parse source file = r.1.map r.2.arena.setRoot ∧
        c.consumed (Grammar.block [.eof]) <+: (Scanner.ofText source file).tokens.1 ∧
        (c.consumed (Grammar.block [.eof])).length ≤
          proper (Scanner.ofText source file).tokens.1 := by
  refine ⟨fun c routine => ?_, fun repeats comes => comes.taken repeats.rank_eq,
    fun source file => ?_⟩
  · have spends := Cursor.spends_run routine.proceeds
    refine ⟨fun _ => Cursor.exec_eq_run routine.proceeds, spends.ahead, spends.more,
      fun a d ran => ?_⟩
    obtain ⟨behind, moved, taken, made⟩ := spends.behind a d (congrArg some ran)
    exact ⟨behind, fun takes => made (taken takes)⟩
  · cases started : Cursor.start source file with
    | error e => exact .inl ⟨e, rfl, by rw [parse, parseTraced, started]⟩
    | ok c =>
      have routine : Grammar.Routine c.current.kind _ _ := .block [.eof]
      have walk := routine.proceeds
      have spends := Cursor.spends_run walk
      have within := spends.ahead.prefix_tokens started spends.more
      refine .inr ⟨c, _, rfl, fun _ => Cursor.exec_eq_run walk, parse_of_start started, within, ?_⟩
      exact (proper_eq_length spends.more) ▸ within.sublist.countP_le

/-- Expressions may be left out, and then take nothing: the items of `[,]` are read all the same,
and a round of arguments that begins at a comma goes past it. -/
theorem parse_progresses_empty :
    (∃ c, Cursor.start "[,]" none = .ok c ∧ c.current.kind ≠ .eof ∧
      (c.run (Grammar.list false)).1.toBool = true ∧ c.consumed (Grammar.list false) ≠ [] ∧
      ∀ t ∈ c.consumed (Grammar.list false), t.kind ≠ .eof) ∧
    (∃ c d ts rest, Cursor.start ",]" none = .ok c ∧
      (Rule.items [.arrClose] (.expression false)).Repeats
        (.items [.arrClose] (.expression false)) ∧
      (Rule.items [.arrClose] (.expression false)).body.Comes 2 c ts
        (.step (.call (.items [.arrClose] (.expression false))) rest) d ∧ ts ≠ []) ∧
    ∃ c, Cursor.start "[,];" none = .ok c ∧ (c.consumed (Grammar.block [.eof])).length ≤ 4 := by
  let mark (kind : Kind) : Token := .canonical kind ⟨⟨1, 1⟩, ⟨1, 2⟩⟩
  let at_ (kind : Kind) (rest : List Char) : Cursor :=
    ⟨⟨"shell", rest, ⟨1, 2⟩, some kind⟩, mark kind, [], .empty, [.lexed (mark kind).text]⟩
  refine ⟨?_, ?_, ?_⟩
  · let c := at_ .arrOpen [',', ']']
    have opened : c.current.kind ≠ .eof := by decide
    obtain ⟨-, -, more, behind⟩ := parse_progresses.1 c (.list false opened)
    have ends : (c.run (Grammar.list false)).1.toBool = true := by decide +kernel
    rcases ran : c.run (Grammar.list false) with ⟨e | a, d⟩
    · simp [ran, Except.toBool] at ends
    exact ⟨c, rfl, opened, ran ▸ rfl, (behind a d ran).2 rfl, more⟩
  · let c := at_ .comma [']']
    obtain ⟨ts, rest, d, comes⟩ : ∃ ts rest d,
        (Rule.items [.arrClose] (.expression false)).body.Comes 2 c ts
          (.step (.call (.items [.arrClose] (.expression false))) rest) d :=
      ⟨_, _, _, .later rfl (.later rfl (.later rfl (.later rfl .here)))⟩
    have repeats := Rule.Repeats.items [.arrClose] (.expression false)
    exact ⟨c, d, ts, rest, rfl, repeats, comes, (parse_progresses.2.1 repeats comes).2.2⟩
  · let c := at_ .arrOpen [',', ']', ';']
    have started : Cursor.start "[,];" none = .ok c := rfl
    have few : proper (Scanner.ofText "[,];" none).tokens.1 = 4 := by decide +kernel
    rcases parse_progresses.2.2 "[,];" none with ⟨e, failed, -⟩ | ⟨_, r, again, -, -, -, within⟩
    · cases started.symm.trans failed
    cases started.symm.trans again
    exact ⟨c, started, few ▸ within⟩

end ScriptSyntax
