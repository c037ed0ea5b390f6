import ScriptSyntax.Proofs.Locality.Drawing
import ScriptSyntax.Proofs.Locality.Rebasing
import ScriptSyntax.Proofs.Program.Parentheses

/-! What a parse depends on. An error in the order of the tokens is settled by those that were read
when it is found, and a statement by its own tokens and the next one. -/
namespace ScriptSyntax

open Parse

/-- A source that is rejected for the order of its tokens is rejected by those of them that were
read: each source of the file that begins with these ends in the same error, whatever follows. A
statement has the same external form on every cursor that faces its tokens and the next one, up to
their places. -/
theorem parse_local :
    (∀ (source : String) (file : Option String) (events : List Event) (e : Error),
      parseTraced source file = (events, .error e) → e.fault.faultClass = .syntactic →
      ∃ ts s, (Scanner.ofText source file).Emits ts s ∧
        events.filterMap Event.lexed? = ts.map Token.text ∧
        ∀ source' file' s', file'.getD defaultFile = file.getD defaultFile →
          (Scanner.ofText source' file').Emits ts s' →
          parseTraced source' file' = (events, .error e)) ∧
    ∀ (c d : Cursor) (id : NodeId), c.run (call .statement) = (.ok id, d) →
      ∃ ts, c.Takes ts d ∧ (∀ t ∈ ts, t.kind ≠ .eof) ∧
        ∀ (c' : Cursor) (s : Scanner) (us : List Token) (u : Token), c'.Follows s →
          c'.Faces (us ++ [u]) → us.map Token.unplaced = ts.map Token.unplaced →
          u.unplaced = d.current.unplaced →
          ∃ id' d', c'.run (call .statement) = (.ok id', d') ∧ c'.Takes us d' ∧
            d'.arena.nodeRecord id' = d.arena.nodeRecord id := by
  refine ⟨fun _ _ _ _ => parseTraced_of_error, fun c d id ran => ?_⟩
  obtain ⟨ts, takes, more, again⟩ := Rule.statement_local (Cursor.run_call_ok.mp ran)
  refine ⟨ts, takes, more, fun c' s us u follows faces same next => ?_⟩
  obtain ⟨id', d', ran', after⟩ := again us u c' faces same next
  exact ⟨id', d', follows.run_call ran', after⟩

/-- What follows the `)` that stands for an operand is not read, and neither is what follows the
name behind a statement. -/
theorem parse_local_closer :
    (∃ events e, parseTraced "x + ) ;" none = (events, .error e) ∧
      e.fault.faultClass = .syntactic ∧ (tokenize "x + ) \x27" none).toBool = false ∧
      parseTraced "x + ) \x27" none = (events, .error e)) ∧
    ∃ c id d c' id' d', Cursor.start "x; y" none = .ok c ∧
      c.run (call .statement) = (.ok id, d) ∧ Cursor.start "x ; y(2)" none = .ok c' ∧
      c'.run (call .statement) = (.ok id', d') ∧
      d'.arena.nodeRecord id' = d.arena.nodeRecord id := by
  let name (letter : Char) (column : Nat) : Token :=
    ⟨.var, String.ofList [letter], ⟨⟨1, column⟩, ⟨1, column + 1⟩⟩⟩
  let sign (kind : Kind) (column : Nat) : Token :=
    .canonical kind ⟨⟨1, column⟩, ⟨1, column + 1⟩⟩
  constructor
  · let ts := [name 'x' 1, sign .add 3, sign .parClose 5]
    have lexed : tokenize "x + ) ;" none =
        .ok (ts ++ [sign .eol 7, .canonical .eof ⟨⟨1, 8⟩, ⟨1, 8⟩⟩]) := by decide +kernel
    have lexed' : (Scanner.ofText "x + ) \x27" none).tokens =
        (ts, some ⟨.unterminatedString '\'', ⟨⟨1, 7⟩, "shell"⟩⟩) := by decide +kernel
    have facts : (parseTraced "x + ) ;" none).1.filterMap Event.lexed? = ts.map Token.text ∧
        (parseTraced "x + ) ;" none).2.map (fun _ => ()) =
          .error ⟨.unexpectedToken "PAR_CLOSE", ⟨⟨1, 5⟩, "shell"⟩⟩ := by decide +kernel
    rcases traced : parseTraced "x + ) ;" none with ⟨events, e | a⟩ <;> rw [traced] at facts
    case ok => cases facts.2
    obtain rfl := Except.error.inj facts.2
    obtain ⟨us, _, given, texts, again⟩ := parse_local.1 _ _ _ _ traced rfl
    obtain ⟨_, _, _, -, -, -, reads⟩ := Scanner.emits_of_tokenize lexed
    have length := congrArg List.length (texts.symm.trans facts.1)
    obtain ⟨_, reads, -⟩ := reads.exists_of_append
    have same : us = ts := by
      rw [List.length_map, List.length_map] at length
      rcases given.prefix_total reads with shorter | longer
      · exact shorter.eq_of_length length
      · exact (longer.eq_of_length length.symm).symm
    obtain ⟨-, s', _, reads', -⟩ := Scanner.emits_of_tokensWithin_error lexed'
    exact ⟨_, _, rfl, rfl, by decide +kernel, again _ _ s' rfl (same ▸ reads')⟩
  · let ts := [name 'x' 1, sign .eol 2]
    let us := [name 'x' 1, sign .eol 3]
    have lexed : tokenize "x; y" none =
        .ok (ts ++ [name 'y' 4, .canonical .eof ⟨⟨1, 5⟩, ⟨1, 5⟩⟩]) := by decide +kernel
    have lexed' : (tokenize "x ; y(2)" none).toOption.any
        (·.take 3 = us ++ [name 'y' 5]) = true := by decide +kernel
    let c : Cursor := ⟨⟨"shell", [';', ' ', 'y'], ⟨1, 2⟩, some .var⟩, name 'x' 1, [], .empty,
      [.lexed (name 'x' 1).text]⟩
    have started : Cursor.start "x; y" none = .ok c := rfl
    have ends : (c.run (call .statement)).1.toBool = true ∧
        (c.run (call .statement)).2.current = name 'y' 4 := by decide +kernel
    rcases ran : c.run (call .statement) with ⟨_ | id, d⟩ <;> rw [ran] at ends
    · cases ends.1
    obtain ⟨vs, takes, -, again⟩ := parse_local.2 c d id ran
    have same : vs = ts := by
      obtain ⟨_, reads, split⟩ := takes
      have after := (Cursor.start_at started).reads.append reads
      rw [List.nil_append, List.cons_append, split, ends.2] at after
      obtain ⟨_, _, _, -, -, -, whole⟩ := Scanner.emits_of_tokenize lexed
      exact after.eq_before whole nofun
    let c' : Cursor := ⟨⟨"shell", " ; y(2)".toList, ⟨1, 2⟩, some .var⟩, name 'x' 1, [], .empty,
      [.lexed (name 'x' 1).text]⟩
    have started' : Cursor.start "x ; y(2)" none = .ok c' := rfl
    obtain ⟨ws, whole, three⟩ := exists_ok lexed'
    have faces : c'.Faces (us ++ [name 'y' 5]) :=
      three ▸ (Cursor.start_faces whole started').mono (List.take_prefix ..)
    obtain ⟨id', d', ran', -, record⟩ := again c' _ us (name 'y' 5) (.start started') faces
      (by rw [same]; decide) (by rw [ends.2]; decide)
    exact ⟨c, id, d, c', id', d', started, ran, started', ran', record⟩

end ScriptSyntax
