import ScriptSyntax.Proofs.Bodies.Crossing
import ScriptSyntax.Proofs.Bodies.Texts
import ScriptSyntax.Proofs.Program.Concatenation

/-! Empty bodies. Behind its keyword and what leads to it an empty body may be written as one token
or as two, and the external form of the program is the same. A switch alone wants two tokens. -/
namespace ScriptSyntax

open Lexeme (WellFormed)

variable {source source' : String} {file file' : Option String} {a : Arena}
  {before lead braces braces' after ts us : List Token} {keyword last : Token} {stage : Stage}

/-- Sources that differ in one empty body are parsed into the same nodes. -/
theorem Seam.parse (x : Seam) (gives : (Scanner.ofText source file).Gives x.first)
    (gives' : (Scanner.ofText source' file').Gives x.second)
    (accepted : parse source file = .ok a) : parse source' file' = .ok a := by
  obtain ⟨c, depth, ids, d, started, ran, rfl⟩ := parse_ok_iff.mp accepted
  obtain ⟨_, same, walks⟩ := Cursor.start_walks gives
  cases started.symm.trans same
  obtain ⟨c', started', walks'⟩ := Cursor.start_walks gives'
  have ready : ∃ s base forest, Rule.program.Ready c s base forest :=
    ⟨_, [], [], Cursor.start_at started⟩
  have beside : x.Beside c c' := .inl ⟨0, Nat.zero_le _, walks, walks', by
    rw [Cursor.start_arena started, Cursor.start_arena started']⟩
  obtain ⟨d', ran', beside⟩ := x.even depth Rule.program c c' d ids rfl ready beside ran
  have arena : d'.arena = d.arena := by
    obtain ⟨_, -, level⟩ | ⟨_, level⟩ := beside
    · exact level.arena
    · exact level.arena
  exact parse_ok_iff.mpr ⟨c', depth + 1, ids, d', started', ran', by rw [arena]⟩

/-- The tokens of two sources that differ in one empty body. -/
def Seam.ofTokens (before lead braces braces' after : List Token) (keyword last : Token)
    (stage : Stage) (opens : keyword.kind.stage? = some stage) (leads : stage.Leads lead)
    (empty : EmptyBraces braces) (empty' : EmptyBraces braces')
    (more : ∀ t ∈ before ++ keyword :: lead ++ (braces ++ after), t.kind ≠ .eof)
    (eof : last.kind = .eof) : Seam where
  first n := (before ++ keyword :: lead ++ (braces ++ after))[n]?.getD last
  second n := (before ++ keyword :: lead ++ (braces' ++ after))[n]?.getD last
  opens := before.length
  stage := stage
  lead := lead
  braces := braces
  braces' := braces'
  keyword := by simpa using opens
  leads := leads
  empty := empty
  empty' := empty'
  lies := by simpa using lies_getElem? (before ++ [keyword]) (lead ++ braces) after last
  lies' := by
    have lies := lies_getElem? (before ++ keyword :: lead) braces' after last
    rwa [List.length_append, List.length_cons, Nat.add_comm lead.length, ← Nat.add_assoc] at lies
  before i inside := by
    have inside : i < (before ++ keyword :: lead).length := by
      rw [List.length_append, List.length_cons]
      omega
    rw [List.getElem?_append_left inside, List.getElem?_append_left inside]
  after n := by
    have place : before.length + 1 + lead.length = (before ++ keyword :: lead).length := by
      rw [List.length_append, List.length_cons]
      omega
    simp only [place, Nat.add_assoc, List.getElem?_append_right (Nat.le_add_right ..),
      Nat.add_sub_cancel_left]
  stop := _
  ends := endsAt_of_tokens more eof

/-- Two sources with the same tokens at the same places, but for an empty body. -/
theorem parse_apart
    (lexed : tokenize source file = .ok (before ++ keyword :: lead ++ (braces ++ after) ++ [last]))
    (lexed' : tokenize source' file' =
      .ok (before ++ keyword :: lead ++ (braces' ++ after) ++ [last]))
    (opens : keyword.kind.stage? = some stage) (leads : stage.Leads lead)
    (empty : EmptyBraces braces) (empty' : EmptyBraces braces')
    (accepted : parse source file = .ok a) : parse source' file' = .ok a := by
  obtain ⟨more, eof, -⟩ := Scanner.ends_of_tokenize lexed
  let x := Seam.ofTokens before lead braces braces' after keyword last stage opens leads empty
    empty' more eof
  exact x.parse (Scanner.gives_of_tokenize lexed) (Scanner.gives_of_tokenize lexed') accepted

/-- Sources with the same tokens have one external form. -/
theorem parse_of_lexemes (lexed : tokenize source file = .ok ts)
    (lexed' : tokenize source' file' = .ok us) (same : us.map Token.lexeme = ts.map Token.lexeme)
    (accepted : parse source file = .ok a) :
    ∃ b, parse source' file' = .ok b ∧ b.record = a.record := by
  let place (l : Lexeme) : Token := ⟨l.kind, l.value, .null⟩
  have alike : ts.map Token.unplaced = us.map Token.unplaced := by
    have places := congrArg (List.map place) same.symm
    rwa [List.map_map, List.map_map] at places
  obtain ⟨c, c', started, started', alike⟩ := Cursor.Alike.start lexed lexed' alike
  obtain ⟨_, depth, ids, d, again, ran, rfl⟩ := parse_ok_iff.mp accepted
  cases started.symm.trans again
  have here := Cursor.start_at started
  obtain ⟨ids', d', ran', nodes, after⟩ := alike.call (.of_forest here.forest) rfl ran
  refine ⟨_, parse_ok_iff.mpr ⟨c', depth, ids', d', started', ran', rfl⟩, ?_⟩
  obtain rfl : ids = ids' := by simpa [Arena.size_empty] using nodes
  rw [← Arena.record_unplaced, ← Arena.rooted_unplaced, after.arena, Arena.atop_empty,
    Arena.rooted_unplaced, Arena.record_unplaced]

/-- An empty body may be written either way. Where a source is accepted that holds empty braces
behind a keyword and what leads from it to its body, so is every source that has the same tokens
but for these braces, which it may write the other way, and with the same external form. -/
theorem parse_braces
    (lexed : tokenize source file = .ok (before ++ keyword :: lead ++ (braces ++ after) ++ [last]))
    (lexed' : tokenize source' file' = .ok us)
    (same : us.map Token.lexeme =
      (before ++ keyword :: lead ++ (braces' ++ after) ++ [last]).map Token.lexeme)
    (opens : keyword.kind.stage? = some stage) (leads : stage.Leads lead)
    (empty : EmptyBraces braces) (empty' : EmptyBraces braces')
    (accepted : parse source file = .ok a) :
    ∃ b, parse source' file' = .ok b ∧ b.record = a.record := by
  rw [List.map_append] at same
  obtain ⟨us, _, rfl, inner, tail⟩ := List.map_eq_append_iff.mp same
  obtain ⟨last', rfl, -⟩ := List.map_eq_singleton_iff.mp tail
  obtain ⟨whole, eof⟩ := Scanner.fits_of_tokenize lexed
  obtain ⟨whole', eof'⟩ := Scanner.fits_of_tokenize lexed'
  obtain ⟨fit, fit', fused, written⟩ := empty.lexemes whole
  obtain ⟨-, -, fused', written'⟩ := empty'.lexemes (inner ▸ whole')
  -- Both sources have the tokens of texts that differ in their braces alone.
  obtain ⟨ts, after₁, last₁, first, behind, final, texts⟩ := Scanner.exists_texts fit fit'
  rw [List.map_append, List.map_cons] at first
  obtain ⟨before₁, _, rfl, front, headed⟩ := List.map_eq_append_iff.mp first
  obtain ⟨keyword₁, lead₁, rfl, opening, between⟩ := List.map_eq_cons_iff.mp headed
  obtain ⟨text, braces₁, empty, bodies, text_lexed⟩ := texts fused
  obtain ⟨text', braces₁', empty', bodies', text_lexed'⟩ := texts fused'
  have kind : keyword₁.kind = keyword.kind := congrArg Lexeme.kind opening
  have kinds := congrArg (List.map Lexeme.kind) between
  rw [List.map_map, List.map_map] at kinds
  obtain ⟨b, accepted, record⟩ := parse_of_lexemes lexed text_lexed
    (by simp [front, opening, between, behind, bodies, written, final, eof]) accepted
  obtain ⟨c, accepted, record'⟩ := parse_of_lexemes text_lexed' lexed'
    (by simp [inner, front, opening, between, behind, bodies', written', final, eof'])
    (parse_apart text_lexed text_lexed' (kind ▸ opens) (leads.congr kinds) empty empty' accepted)
  exact ⟨c, accepted, record'.trans record⟩

/-- The function that is passed to `g` has an empty body. -/
theorem parse_braces_argument : ∃ (before lead braces braces' after us : List Token)
    (keyword last : Token) (stage : Stage) (a b : Arena),
    tokenize "g(func(a = (1)) => \x7b \x7d);" none =
      .ok (before ++ keyword :: lead ++ (braces ++ after) ++ [last]) ∧
    tokenize "g(func(a = (1)) => \x7b\x7d);" none = .ok us ∧
    us.map Token.lexeme =
      (before ++ keyword :: lead ++ (braces' ++ after) ++ [last]).map Token.lexeme ∧
    keyword.kind.stage? = some stage ∧ stage.Leads lead ∧
    EmptyBraces braces ∧ braces.length = 2 ∧ EmptyBraces braces' ∧ braces'.length = 1 ∧
    parse "g(func(a = (1)) => \x7b \x7d);" none = .ok a ∧
    (a.shape? 6 = some (.func [4] 5) ∧ a.shape? 5 = some (.block [])) ∧
    parse "g(func(a = (1)) => \x7b\x7d);" none = .ok b ∧ b.record = a.record := by
  let word (kind : Kind) (text : String) (first stop : Nat) : Token :=
    ⟨kind, text, ⟨⟨1, first⟩, ⟨1, stop⟩⟩⟩
  let sign (kind : Kind) (first stop : Nat) : Token := .canonical kind ⟨⟨1, first⟩, ⟨1, stop⟩⟩
  let before := [word .var "g" 1 2, sign .parOpen 2 3]
  let params := [word .var "a" 8 9, sign .assign 10 11, sign .parOpen 12 13,
    word .intVal "1" 13 14, sign .parClose 14 15]
  let lead := sign .parOpen 7 8 :: (params ++ [sign .parClose 15 16, sign .direct 17 19])
  have leads : Stage.header.Leads lead :=
    .header rfl (.inside (fun _ => rfl) rfl (.arrow rfl))
  let apart := [sign .scopeOpen 20 21, sign .scopeClose 22 23]
  have lexed : tokenize "g(func(a = (1)) => \x7b \x7d);" none =
      .ok (before ++ sign .funcKw 3 7 :: lead ++
        (apart ++ [sign .parClose 23 24, sign .eol 24 25]) ++ [sign .eof 25 25]) := by
    decide +kernel
  have lexed' : tokenize "g(func(a = (1)) => \x7b\x7d);" none =
      .ok (before ++ sign .funcKw 3 7 :: lead ++
        ([sign .mapType 20 22] ++ [sign .parClose 22 23, sign .eol 23 24]) ++
          [sign .eof 24 24]) := by
    decide +kernel
  have empty : (parse "g(func(a = (1)) => \x7b \x7d);" none).toOption.any
      (fun a => a.shape? 6 = some (.func [4] 5) ∧ a.shape? 5 = some (.block [])) = true := by
    decide +kernel
  obtain ⟨a, accepted, shown⟩ := exists_ok empty
  obtain ⟨b, accepted', record⟩ := parse_braces lexed lexed' rfl rfl leads
    (.apart rfl rfl) (.fused rfl) accepted
  exact ⟨_, _, _, _, _, _, _, _, _, a, b, lexed, lexed', rfl, rfl, leads, .apart rfl rfl, rfl,
    .fused rfl, rfl, accepted, shown, accepted', record⟩

/-- Behind a switch the empty body cannot be written in one token. -/
theorem switch_body_apart : ¬ ∀ (source source' : String) (file file' : Option String) (a : Arena)
    (before lead braces braces' after us : List Token) (keyword last : Token),
    tokenize source file = .ok (before ++ keyword :: lead ++ (braces ++ after) ++ [last]) →
    tokenize source' file' = .ok us →
    us.map Token.lexeme =
      (before ++ keyword :: lead ++ (braces' ++ after) ++ [last]).map Token.lexeme →
    keyword.kind = .switchKw → Stage.header.Leads lead → EmptyBraces braces → EmptyBraces braces' →
    parse source file = .ok a → ∃ b, parse source' file' = .ok b ∧ b.record = a.record := by
  intro claim
  let sign (kind : Kind) (first stop : Nat) : Token := .canonical kind ⟨⟨1, first⟩, ⟨1, stop⟩⟩
  let name : Token := ⟨.var, "x", ⟨⟨1, 9⟩, ⟨1, 10⟩⟩⟩
  let lead := sign .parOpen 8 9 :: ([name] ++ [sign .parClose 10 11, sign .direct 12 14])
  have leads : Stage.header.Leads lead := .header rfl (.inside (fun _ => rfl) rfl (.arrow rfl))
  let apart := [sign .scopeOpen 15 16, sign .scopeClose 17 18]
  have lexed : tokenize "switch (x) => \x7b \x7d" none =
      .ok ([] ++ sign .switchKw 1 7 :: lead ++ (apart ++ []) ++ [sign .eof 18 18]) := by
    decide +kernel
  have lexed' : tokenize "switch (x) => \x7b\x7d" none =
      .ok ([] ++ sign .switchKw 1 7 :: lead ++ ([sign .mapType 15 17] ++ []) ++
        [sign .eof 17 17]) := by
    decide +kernel
  have empty : (parse "switch (x) => \x7b \x7d" none).toOption.any
      (·.shape? 1 = some (.switch 0 [] none)) = true := by decide +kernel
  obtain ⟨a, accepted, -⟩ := exists_ok empty
  obtain ⟨b, accepted', -⟩ := claim _ _ _ _ a _ _ _ _ _ _ _ _ lexed lexed' rfl rfl
    leads (.apart rfl rfl) (.fused rfl) accepted
  have fails : (parse "switch (x) => \x7b\x7d" none).toBool = false := by decide +kernel
  simp [accepted', Except.toBool] at fails

end ScriptSyntax
