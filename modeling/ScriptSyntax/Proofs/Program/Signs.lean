import ScriptSyntax.Proofs.Program.Accepted
import ScriptSyntax.Proofs.Progress.Taking
import ScriptSyntax.Proofs.Signs.Inline
import ScriptSyntax.Proofs.Signs.Run

/-! The sign rule of the scanner against the operands of the grammar. A minus behind an operand is
an operator of its own. -/
namespace ScriptSyntax

variable {source : String} {file : Option String} {c d : Cursor}

/-- Whether the rule reads an operand, or what applies to one. -/
def Rule.isOperand {y : Yield} : Rule y → Bool
  | term _ | suffix _ => true
  | _ => false

namespace Cursor.After

variable {s : Scanner} {taken : List Token} {t : Token}

theorem kind_last (after : d.After s (taken ++ [t])) : s.kinds taken.length = t.kind :=
  Scanner.Emits.kinds after (by simp)

theorem unsigned (after : d.After s taken) (fits : Unsigned s.kinds taken.length) :
    d.current.isNegative = false := by
  rcases fits with other | ⟨n, long, ends⟩
  · rw [after.kind] at other
    simp only [Token.isNegative, List.contains_eq_mem, other, decide_false, Bool.false_and]
  · rcases List.eq_nil_or_concat taken with rfl | ⟨before, t, rfl⟩
    · simp at long
    · rw [List.concat_eq_append] at after long
      obtain rfl : before.length = n := by simpa using long
      rw [after.kind_last] at ends
      exact Scanner.Emits.unsigned (by simpa [After] using after) ends

/-- A `>` that was taken last by a term closes the types of a name. -/
theorem endsInline {before : List Token} {stops : List Kind} {r : Tree}
    (after : d.After s (before ++ taken)) (closed : Closed s.kinds (before ++ taken).length)
    (term : Derives (.term stops) taken d.current r) : EndsInline (before ++ taken) d.current := by
  obtain ⟨ts, t, rfl⟩ : ∃ ts t, taken = ts ++ [t] :=
    ⟨_, _, (List.dropLast_append_getLast (term.ne_nil rfl)).symm⟩
  rw [← List.append_assoc] at after closed ⊢
  obtain ⟨n, long, greater⟩ := closed
  obtain rfl : (before ++ ts).length = n := by
    rw [List.length_append, List.length_singleton] at long
    omega
  rw [after.kind_last] at greater
  obtain ⟨us, stops, r, ends, derives⟩ := term.closesInline rfl t (by simp) greater
  exact ⟨us, stops, r, ends.trans (by simp), derives⟩

end Cursor.After

/-- Whenever a term or what applies to one has been read while a source is parsed, whether or not
the source is accepted, the current token is no number with a minus, unless the last tokens taken
are a name with types, which the scanner takes for no operand. -/
theorem parse_unsigned (started : Cursor.start source file = .ok c) {y : Yield} {rule : Rule y}
    {value : y.Value} (operand : rule.isOperand = true)
    (returns : (Grammar.block [.eof]).Returns rule value d c.depth c) :
    ∃ taken, d.After (.ofText source file) taken ∧
      (¬EndsInline taken d.current → d.current.isNegative = false) := by
  have here := Cursor.start_at started
  have block := @Grammar.block_sound c.depth c.point c _ [] [] (sound c.depth) here [.eof]
  have after : c.After (.ofText source file) [] := here.reads
  obtain ⟨e, depth, before, at_, enters, apt, ran⟩ :=
    returns.called (Grammar.block_treads [.eof]) after block.apt
  obtain ⟨us, final, leaves⟩ := Parse.heeded _ depth rule e d before value at_ enters ran
  refine ⟨before ++ us, final, fun plain => ?_⟩
  cases rule with
  | suffix => exact final.unsigned leaves
  | term stops =>
    rcases leaves with fits | closed
    · exact final.unsigned fits
    obtain ⟨_, _, forest, ready⟩ := apt
    have placed : e.At (.ofText source file) before forest := ⟨at_, ready.forest⟩
    obtain ⟨ts, r, -, derives, within⟩ := sound depth (.term stops) _ _ _ _ _ _ placed ran
    by_cases eof : d.current.kind = .eof
    · simp [Token.isNegative, eof]
    · obtain same := Scanner.Emits.eq_before final within.reads eof
      obtain rfl := List.append_cancel_left same
      exact absurd (final.endsInline closed derives) plain
  | _ => cases operand

/-- The `x` of `x-1;` is a term. -/
theorem parse_unsigned_minus : ∃ (c d : Cursor) (value : NodeId) (taken : List Token),
    Cursor.start "x-1;" none = .ok c ∧
      (Grammar.block [.eof]).Returns (.term [.eol]) value d c.depth c ∧
      d.After (.ofText "x-1;" none) taken ∧
      (¬EndsInline taken d.current → d.current.isNegative = false) := by
  let name : Token := ⟨.var, String.ofList ['x'], ⟨⟨1, 1⟩, ⟨1, 2⟩⟩⟩
  let c : Cursor := ⟨⟨"shell", ['-', '1', ';'], ⟨1, 2⟩, some .var⟩, name, [], .empty,
    [.lexed name.text]⟩
  have started : Cursor.start "x-1;" none = .ok c := rfl
  have ends : (((Rule.term [.eol]).run 17 (c.note (.statement name.text))).any
      (·.1.toBool)) = true := by decide +kernel
  rcases ran : (Rule.term [.eol]).run 17 (c.note (.statement name.text)) with
    _ | ⟨_ | value, d⟩ <;> rw [ran] at ends
  · cases ends
  · cases ends
  have returns : (Grammar.block [.eof]).Returns (.term [.eol]) value d c.depth c := by
    change Parse.Returns _ _ _ 20 _ _
    -- The statements of the block, of which the first is an expression.
    refine .inside (.later rfl (.later rfl ?_))
    refine .inside (.later rfl (.later rfl (.later rfl ?_)))
    exact .inside (.later rfl (.here ran))
  obtain ⟨taken, after, unsigned⟩ := parse_unsigned started rfl returns
  exact ⟨c, d, value, taken, started, returns, after, unsigned⟩

end ScriptSyntax
