import ScriptSyntax.Proofs.Extension.Statement

/-! The statements of a program, one after the other. Those of a source are read where it is
followed by more as well, and then what follows is read. -/
namespace ScriptSyntax

open Grammar Parse

variable {depth : Nat} {c c' d : Cursor} {id : NodeId} {ids : List NodeId}

/-- All statements of a program up to the end of input. -/
abbrev Rule.program : Rule .nodes := .statements [.eof]

theorem Rule.run_program (depth : Nat) (c : Cursor) : Rule.program.run (depth + 1) c =
    (if c.current.kind = .eof then pure []
      else call .statement >>= fun first => call .program >>= fun others => pure (first :: others) :
      Parse (List NodeId)).exec (Rule.run depth) c.point c := by
  have decided : Rule.program.run (depth + 1) c =
      (if [Kind.eof].contains c.current.kind = true then pure []
        else isAt .eof >>= fun ended => if ended = true then endOfInput
        else call .statement >>= fun first =>
          call .program >>= fun others => pure (first :: others) :
        Parse (List NodeId)).exec (Rule.run depth) c.point c := rfl
  rw [decided]
  by_cases eof : c.current.kind = .eof
  · rw [if_pos eof, if_pos (by simp [eof])]
  · rw [if_neg eof, if_neg (by simpa using eof)]
    change (if decide (c.current.kind = .eof) = true then endOfInput else _ :
      Parse (List NodeId)).exec (Rule.run depth) c.point c = _
    rw [if_neg (by simpa using eof)]

theorem Rule.run_program_of_eof (eof : c.current.kind = .eof) :
    Rule.program.run (depth + 1) c = some (.ok [], c) := by
  rw [run_program, if_pos eof]
  rfl

/-- A program is a statement, and then a program. -/
theorem Rule.run_program_of_ne (more : c.current.kind ≠ .eof) :
    Rule.program.run (depth + 1) c = some (.ok ids, d) ↔ ∃ first others e,
      ids = first :: others ∧ Rule.statement.run depth c = some (.ok first, e) ∧
        Rule.program.run depth e = some (.ok others, d) := by
  rw [run_program, if_neg more, exec_bind_ok]
  constructor
  · rintro ⟨first, e, ran, later⟩
    obtain ⟨others, e', ran', final⟩ := exec_bind_ok.mp later
    cases final
    exact ⟨first, others, e, rfl, (exec_perform _).symm.trans ran,
      (exec_perform _).symm.trans ran'⟩
  · rintro ⟨first, others, e, rfl, ran, ran'⟩
    exact ⟨first, e, (exec_perform _).trans ran,
      exec_bind_ok.mpr ⟨others, d, (exec_perform _).trans ran', rfl⟩⟩

/-- Neither `else` nor `catch` begins a statement. -/
theorem Rule.run_statement_apart (ran : Rule.statement.run depth c = some (.ok id, d)) :
    c.current.kind ∉ [.elseKw, .catchKw] := by
  cases depth with
  | zero => cases ran
  | succ depth =>
    -- Both are kinds of directives, but begin none.
    have decided : Rule.statement.run (depth + 1) c =
        (if c.current.kind.isDirective = true then directive
          else plainStatement >>= fun statement => expect .eol >>= fun _ => pure statement :
          Parse NodeId).exec (Rule.run depth) c.point (c.note (.statement c.current.text)) := rfl
    have chosen {k : Kind} (kind : c.current.kind = k) (f : Kind → Parse NodeId) :
        (current >>= f).exec (Rule.run depth) c.point (c.note (.statement c.current.text)) =
          (f k).exec (Rule.run depth) c.point (c.note (.statement c.current.text)) := by
      subst kind
      rfl
    intro other
    rw [decided] at ran
    simp only [List.mem_cons, List.not_mem_nil, or_false] at other
    rcases other with kind | kind <;>
      (rw [kind, if_pos (by decide), directive, chosen kind] at ran; cases ran)

namespace Fork

variable {x : Extension} {i : Nat}

/-- The statements of the shorter source are read off the longer one too, up to where the shorter
one ends, and are followed by whatever statements are read from there on. -/
theorem Abreast.program (abreast : x.Abreast i c c')
    (ran : Rule.program.run depth c = some (.ok ids, d)) :
    ∃ d', x.Abreast x.size d d' ∧ ∀ (depth' : Nat) (more : List NodeId) (e : Cursor),
      Rule.program.run depth' d' = some (.ok more, e) →
      ∃ depth'', Rule.program.run depth'' c' = some (.ok (ids ++ more), e) := by
  induction depth generalizing c c' i ids with
  | zero => cases ran
  | succ depth ih =>
    have here := abreast.first.current
    by_cases eof : c.current.kind = .eof
    · rw [Rule.run_program_of_eof eof] at ran
      cases ran
      have place : i = x.size := by
        have := abreast.within
        have := (x.ends i).mp (here ▸ eof)
        omega
      subst place
      exact ⟨c', abreast, fun depth' more e ran' => ⟨depth', ran'⟩⟩
    obtain ⟨first, others, e, rfl, before, later⟩ := (Rule.run_program_of_ne eof).mp ran
    have inside : i < x.size := x.ends.lt (here ▸ eof)
    obtain ⟨j, e', before', between⟩ := (x.firmRules depth).statement i c.point c'.point c c' e
      first abreast ((exec_perform _).trans before)
    obtain ⟨d', final, rest⟩ := ih between later
    refine ⟨d', final, fun depth' more e ran' => ?_⟩
    obtain ⟨depth'', after⟩ := rest depth' more e ran'
    refine ⟨max depth depth'' + 1, ?_⟩
    rw [List.cons_append]
    refine (Rule.run_program_of_ne (abreast.current inside ▸ eof)).mpr
      ⟨first, others ++ more, e', rfl, ?_, ?_⟩
    · exact Rule.run_of_le (Nat.le_max_left ..) ((exec_perform _).symm.trans before')
    · exact Rule.run_of_le (Nat.le_max_right ..) after

end Fork
end ScriptSyntax
