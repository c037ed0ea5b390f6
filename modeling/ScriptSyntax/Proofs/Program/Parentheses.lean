import ScriptSyntax.Proofs.Enclosure.Expression
import ScriptSyntax.Proofs.Enclosure.Texts
import ScriptSyntax.Proofs.Precedence.Phrase
import ScriptSyntax.Proofs.Program.Layout
import ScriptSyntax.Proofs.Progress.Taking
import ScriptSyntax.Proofs.Record.Embedding
import ScriptSyntax.Proofs.Signs.Run

/-! Redundant parentheses. An expression that stands between parentheses before a `;` has the
external form that it has without them. -/
namespace ScriptSyntax

open Parse

namespace Cursor

variable {base : Arena} {c c' d : Cursor} {tokens tokens' : Nat → Token} {i i' k n : Nat}
  {s : Scanner} {taken : List Token}

/-- Like cursors are as far from the end of input. -/
theorem Alike.ends_eq (alike : Alike base c c') (walks : c.Walks tokens i)
    (walks' : c'.Walks tokens' i') (ends : EndsAt tokens (i + k)) (ends' : EndsAt tokens' n)
    (more : 0 < k) : n = i' + k := by
  refine ends.eq_add ends' (fun m => ?_) more
  obtain ⟨t, u, there, there', same⟩ := alike.ahead m
  rw [Except.ok.inj ((walks.ahead m).symm.trans there),
    Except.ok.inj ((walks'.ahead m).symm.trans there')]
  exact same.kind

/-- What the tokens that were taken are followed by. -/
theorem After.same (after : c.After s taken) (gives : s.Gives tokens) (walks : c.Walks tokens i)
    (m : Nat) : tokens (taken.length + m) = tokens (i + m) :=
  Except.ok.inj ((gives _).symm.trans (walks.nth after m))

theorem After.current_eq (after : c.After s taken) (gives : s.Gives tokens)
    (walks : c.Walks tokens i) : c.current = tokens taken.length :=
  walks.current.trans (after.same gives walks 0).symm

/-- The place of a cursor before the end is the number of the tokens taken before it. -/
theorem After.place_eq (after : c.After s taken) (gives : s.Gives tokens) (ends : EndsAt tokens n)
    (walks : c.Walks tokens i) (more : c.current.kind ≠ .eof) : i = taken.length := by
  have inside : taken.length < n := ends.lt (after.current_eq gives walks ▸ more)
  exact (ends.place_eq (after.same gives walks) inside).symm

theorem After.lexemes {ls ms : List Lexeme} (after : c.After s taken) (gives : s.Gives tokens)
    (given : ∀ n, (tokens n).lexeme = Lexeme.nth (ls ++ ms) n) (count : taken.length = ls.length) :
    taken.map Token.lexeme = ls := by
  apply List.ext_getElem (by simpa using count)
  intro n inside inside'
  rw [List.length_map] at inside
  have read := gives n
  rw [Scanner.Emits.nth after, supply, List.getElem?_append_left inside,
    List.getElem?_eq_getElem inside] at read
  rw [List.getElem_map, Except.ok.inj read, given, Lexeme.nth_append_of_lt inside',
    Lexeme.nth_of_lt inside']

theorem After.nodup (after : c.After s taken) (more : c.current.kind ≠ .eof) : taken.Nodup := by
  have before := Scanner.Emits.not_eof after more
  rw [After, List.append_cons] at after
  obtain ⟨_, reads, -⟩ := after.exists_of_append
  exact (reads.nodup before).sublist (List.sublist_append_left ..)

theorem run_call_ok {y : Yield} {rule : Rule y} {a : y.Value} :
    c.run (call rule) = (.ok a, d) ↔ rule.run c.depth c = some (.ok a, d) := by
  rw [run_ok, call, exec_perform]
  rfl

/-- The depth of a cursor is enough for any rule. -/
theorem Follows.run_call {y : Yield} {rule : Rule y} {depth : Nat} {a : y.Value}
    (follows : c.Follows s) (ran : rule.run depth c = some (.ok a, d)) :
    c.run (call rule) = (.ok a, d) := by
  have walk : (call rule).Proceeds 4 false c.current.kind fun _ _ _ => True := by
    have := rule.rank_le
    simp only [proceeds_call, implies_true, and_true]
    omega
  have whole := run_eq_of_ends (follows.run walk) (Nat.le_max_left c.depth depth)
  have ran : (call rule).exec (Rule.run (max c.depth depth)) c.point c = some (.ok a, d) :=
    (exec_perform _).trans (Rule.run_of_le (Nat.le_max_right ..) ran)
  exact Option.some.inj (whole.symm.trans ran)

end Cursor

/-- What stands between parentheses before a `;` is the only operand of its expression. -/
theorem Rule.run_group {depth : Nat} {c c' d e : Cursor} {opener closer : Token} {id : NodeId}
    (opens : c.current.kind = .parOpen) (entered : c.shift = (.ok opener, c'))
    (ran : (Rule.expression [.parClose] false).run (depth + 1) c' = some (.ok id, d))
    (closes : d.current.kind = .parClose) (left : d.shift = (.ok closer, e))
    (stop : e.current.kind = .eol) : (Rule.expression [.eol] false).run (depth + 3) c =
      some (.ok (e.regroup id).1, (e.regroup id).2.freeze (e.regroup id).1) := by
  have suffix : (Rule.suffix id).run (depth + 1) e = some (.ok id, e) := by
    change (Grammar.suffix id).exec (Rule.run depth) e.point e = _
    rw [Grammar.suffix, exec_current stop]
    rfl
  have term : (Rule.term [.eol]).run (depth + 2) c = some (.ok id, e) := by
    change (Grammar.term [.eol]).exec (Rule.run (depth + 1)) c.point c = _
    rw [Grammar.term, exec_current opens]
    have closed : (expect .parClose).exec (Rule.run (depth + 1)) c.point d =
        some (.ok closer, e) := by
      rw [exec_expect closes, shift, exec_perform]
      exact congrArg some left
    refine exec_bind_ok.mpr ⟨opener, c', (exec_perform _).trans (congrArg some entered), ?_⟩
    refine exec_bind_ok.mpr ⟨id, d, (exec_perform _).trans ran, ?_⟩
    exact exec_bind_ok.mpr ⟨closer, e, closed, (exec_perform _).trans suffix⟩
  have weave : (Rule.weave id [.eol] false).run (depth + 2) e =
      some (.ok (e.regroup id).1, (e.regroup id).2.freeze (e.regroup id).1) := by
    change (Grammar.weave id [.eol] false).exec (Rule.run (depth + 1)) e.point e = _
    rw [Grammar.weave, exec_current stop]
    rfl
  have chosen : (Rule.expression [.eol] false).run (depth + 3) c =
      (if [Kind.eol].contains c.current.kind then add .noOp none else
        call (.term [.eol]) >>= fun first => call (.weave first [.eol] false)).exec
          (Rule.run (depth + 2)) c.point c := rfl
  rw [chosen, opens, if_neg (by decide)]
  exact exec_bind_ok.mpr ⟨id, e, (exec_perform _).trans term, (exec_perform _).trans weave⟩

variable {source : String} {file : Option String} {ts : List Token} {semi last : Token}
  {c c' d : Cursor} {id : NodeId} {depth i : Nat} {tokens : Nat → Token} {s : Scanner}
  {taken : List Token} {t : Tree}

/-- An expression from the start of a source is read alike where its tokens lie ahead of a bare
cursor. -/
theorem run_alike {stops : List Kind} {tokens' : Nat → Token}
    (started : Cursor.start source file = .ok c) (walks : c.Walks tokens 0)
    (walks' : c'.Walks tokens' i) (same : ∀ n, (tokens n).lexeme = (tokens' (i + n)).lexeme)
    (bare : c'.arena = .empty)
    (ran : (Rule.expression stops false).run depth c = some (.ok id, d)) : ∃ d',
      (Rule.expression stops false).run depth c' = some (.ok id, d') ∧
        Cursor.Alike .empty d d' := by
  have alike : Cursor.Alike .empty c c' := .of_walks walks walks'
    (fun n => by rw [Token.alike_iff, Nat.zero_add, same])
    (by rw [bare, Cursor.start_arena started, Arena.atop_empty])
  have here := Cursor.start_at started
  obtain ⟨id', d', ran', same', after⟩ := alike.call (.of_forest here.forest) rfl ran
  obtain rfl : id' = id := by simpa using same'.symm
  exact ⟨d', ran', after⟩

/-- What is read up to a `;` is read up to a `)` in a source that has the tokens in other places. -/
theorem run_enclosed (lexed : tokenize source file = .ok (ts ++ [semi, last]))
    (stop : semi.kind = .eol) (started : Cursor.start source file = .ok c)
    (ran : (Rule.expression [.eol] false).run depth c = some (.ok id, d))
    (whole : d.After (.ofText source file) ts) (walks : c'.Walks tokens i)
    (given : ∀ n, (tokens (i + n)).lexeme =
      Lexeme.nth (ts.map Token.lexeme ++ [.sign .parClose, .sign .eol]) n)
    (ends : EndsAt tokens (i + (ts.length + 2))) (bare : c'.arena = .empty) : ∃ d',
      (Rule.expression [.parClose] false).run depth c' = some (.ok id, d') ∧
        d'.Walks tokens (i + ts.length) ∧ d'.arena.unplaced = d.arena.unplaced := by
  obtain ⟨fit, written⟩ := Scanner.lexemes_of_tokenize lexed stop
  obtain ⟨reading, gives, read⟩ := Scanner.gives_lexemes lexed written
  obtain ⟨_, same, walks₀⟩ := Cursor.start_walks gives
  cases started.symm.trans same
  have ends₀ : EndsAt reading (ts.length + 1) := by
    simpa using endsAt_of_lexemes read (fit.append Lexeme.wellFormed_eol)
  have stands : d.Walks reading ts.length := by
    obtain ⟨j, stands, -⟩ := advances ends₀ depth (.expression [.eol] false) c d 0 id walks₀ ran
    obtain rfl := whole.place_eq gives ends₀ stands (by
      rw [whole.current_eq gives stands, Ne, ends₀]
      omega)
    exact stands
  -- The tokens in two texts that have the same ones up to where a `;` and a `)` follow.
  obtain ⟨x, _, _, size, gives₁, gives₂, short, long⟩ := exists_enclosure fit
  rw [List.length_map] at size
  obtain ⟨c₁, started₁, walks₁⟩ := Cursor.start_walks gives₁
  obtain ⟨c₂, started₂, walks₂⟩ := Cursor.start_walks gives₂
  obtain ⟨d₁, ran₁, after₁⟩ := run_alike started walks₀ walks₁
    (fun n => by rw [Nat.zero_add, read, short]) (Cursor.start_arena started₁) ran
  have arrives (j : Nat) (walks : d₁.Walks x.short j) : j = x.size := by
    have := after₁.ends_eq stands walks ends₀ x.ends Nat.one_pos
    omega
  have abreast : x.Abreast 0 c₁ c₂ := ⟨walks₁, walks₂, Nat.zero_le _, by
    rw [Cursor.start_arena started₁, Cursor.start_arena started₂]⟩
  obtain ⟨j, d₂, ran₂, after₂⟩ | ⟨j, walks, astray⟩ := (x.firmRules depth).expression 0 c.point
    c₂.point c₁ c₂ d₁ id abreast ((exec_perform _).trans ran₁)
  case inr =>
    have := arrives j walks
    omega
  obtain rfl := arrives j after₂.first
  -- The second of them and the source at hand.
  obtain ⟨d', ran', after'⟩ := run_alike started₂ walks₂ walks (fun n => by rw [long, given]) bare
    ((exec_perform _).symm.trans ran₂)
  have ends₂ : EndsAt x.long (x.size + 2) := by
    simpa [size] using endsAt_of_lexemes long (fit.append Lexeme.wellFormed_close)
  obtain ⟨j, walks', -⟩ := advances ends depth (.expression [.parClose] false) c' d' i id walks ran'
  obtain rfl : j = i + ts.length := by
    have := after'.ends_eq after₂.second walks' ends₂ ends Nat.two_pos
    omega
  refine ⟨d', ran', walks', ?_⟩
  rw [after'.arena, Arena.atop_empty, after₂.arena, after₁.arena, Arena.atop_empty]

/-- An expression between parentheses is left as it is where it is regrouped behind them. -/
theorem Rule.embeds_group {e : Cursor} {closer : Token} (here : c.At s taken [])
    (ran : (Rule.expression [.parClose] false).run depth c = some (.ok id, d))
    (closes : d.current.kind = .parClose) (left : d.shift = (.ok closer, e)) :
    (e.regroup id).1 = id ∧ Arena.Embeds 0 d.arena ((e.regroup id).2.freeze id).arena ∧
      d.arena.IsAcyclic ∧ id < d.arena.size ∧ ∃ zs, e.After s zs := by
  obtain ⟨zs, t, top, derives, within⟩ :=
    sound depth (.expression [.parClose] false) c d s taken [] id here ran
  obtain rfl : id = t.id := top
  have settled : t.Settled := by
    have distinct : (taken ++ zs).Nodup := Cursor.After.nodup within.reads (by simp [closes])
    exact (derives.tells (distinct.sublist (List.sublist_append_right ..))).1
  have behind := (within.shifted left).2
  obtain ⟨top, -, after⟩ := @Cursor.At.regrouped e s _ [] t behind
  rw [settled.stable] at top after
  have embeds := (within.forest.embeds after.forest.holds).trans (Arena.embeds_freeze _ t.id)
  have bound := (within.forest.holds t (by simp)).lt_size t.id_mem_ids
  exact ⟨top, embeds, within.forest.isAcyclic, bound, _, behind.reads⟩

/-- An expression that a `;` follows is read off its tokens in parentheses too, with the same
external form. -/
theorem expression_enclosed {file' : Option String} {text : List Char}
    (lexed : tokenize source file = .ok (ts ++ [semi, last])) (stop : semi.kind = .eol)
    (started : Cursor.start source file = .ok c)
    (ran : c.run (call (.expression [.eol] false)) = (.ok id, d))
    (whole : d.After (.ofText source file) ts)
    (renders : Scanner.Renders (Lexeme.enclose false (ts.map Token.lexeme) ++ [.sign .eol]) text) :
    ∃ (us : List Token) (c' d' : Cursor) (id' : NodeId),
      us.map Token.lexeme = Lexeme.enclose false (ts.map Token.lexeme) ∧
      Cursor.start (String.ofList text) file' = .ok c' ∧
      c'.run (call (.expression [.eol] false)) = (.ok id', d') ∧
      d'.After (.ofText (String.ofList text) file') us ∧
      d'.arena.nodeRecord id' = d.arena.nodeRecord id := by
  obtain ⟨fit, -⟩ := Scanner.lexemes_of_tokenize lexed stop
  have fit' := fit.enclose.append Lexeme.wellFormed_eol
  obtain ⟨vs, lexed', written'⟩ := @tokenize_of_renders _ _ file' fit' renders
  obtain ⟨tokens, gives, given⟩ := Scanner.gives_lexemes lexed' written'
  obtain ⟨c', started', walks⟩ := Cursor.start_walks gives
  have length : (Lexeme.enclose false (ts.map Token.lexeme)).length = ts.length + 2 := by
    simp [Lexeme.enclose]
  have ends : EndsAt tokens (1 + (ts.length + 2)) := by
    have ends := endsAt_of_lexemes given fit'
    rwa [List.length_append, length, List.length_singleton, Nat.add_comm] at ends
  -- The parenthesis that opens, what follows it, the one that closes and the `;`.
  have split : Lexeme.enclose false (ts.map Token.lexeme) ++ [.sign .eol] =
      [.sign .parOpen] ++ (ts.map Token.lexeme ++ [.sign .parClose, .sign .eol]) := by
    simp [Lexeme.enclose]
  have inner (n : Nat) : (tokens (1 + n)).lexeme =
      Lexeme.nth (ts.map Token.lexeme ++ [.sign .parClose, .sign .eol]) n := by
    rw [given, split]
    exact Lexeme.nth_append_add [_] _ n
  have seam (n : Nat) : (tokens (1 + ts.length + n)).lexeme =
      Lexeme.nth [.sign .parClose, .sign .eol] n := by
    rw [Nat.add_assoc, inner, ← List.length_map Token.lexeme, Lexeme.nth_append_add]
  have opens : c'.current.kind = .parOpen := walks.current ▸ congrArg Lexeme.kind (given 0)
  obtain ⟨c₁, entered, walks₁, arena₁⟩ := walks.shift
  obtain ⟨d₁, ran₁, after₁, same⟩ := run_enclosed lexed stop started (Cursor.run_call_ok.mp ran)
    whole walks₁ inner ends (arena₁.trans (Cursor.start_arena started'))
  have closes : d₁.current.kind = .parClose := after₁.current ▸ congrArg Lexeme.kind (seam 0)
  obtain ⟨d₂, left, after₂, arena₂⟩ := after₁.shift
  have stops : d₂.current.kind = .eol := after₂.current ▸ congrArg Lexeme.kind (seam 1)
  -- The tree that is made between them.
  have inside := ((Cursor.start_at started').shifted entered).2
  obtain ⟨top, embeds, acyclic, bound, zs, taken⟩ := Rule.embeds_group inside ran₁ closes left
  obtain ⟨depth, deep⟩ : ∃ depth, c.depth = depth + 1 := ⟨c.depth - 1, by
    simp only [Cursor.depth, Cursor.remaining]
    omega⟩
  have final := Rule.run_group opens entered (deep ▸ ran₁) closes left stops
  rw [top] at final
  have count : zs.length = (Lexeme.enclose false (ts.map Token.lexeme)).length := by
    rw [length, ← taken.place_eq gives ends after₂ (by simp [stops])]
    omega
  refine ⟨zs, c', _, id, taken.lexemes gives given count, started',
    (Cursor.Follows.start started').run_call final, ?_, ?_⟩
  · obtain ⟨current, pending, scanner, -⟩ := d₂.regroup_keeps id
    exact taken.stay scanner current pending
  · exact (embeds.nodeRecord_eq acyclic bound).trans
      ((Arena.embeds_of_unplaced same.symm).nodeRecord_eq acyclic bound).symm

/-- The sum `a + b` is read from `a + b;` and from `( a + b ) ;`. -/
theorem expression_enclosed_sum : ∃ (ts : List Token) (semi last : Token) (c d : Cursor)
    (id : NodeId), tokenize "a + b;" none = .ok (ts ++ [semi, last]) ∧ semi.kind = .eol ∧
    Cursor.start "a + b;" none = .ok c ∧
    c.run (call (.expression [.eol] false)) = (.ok id, d) ∧
    d.arena.shape? id = some (.binaryOp 0 1) ∧ d.After (.ofText "a + b;" none) ts ∧
    Scanner.Renders (Lexeme.enclose false (ts.map Token.lexeme) ++ [.sign .eol])
      "( a + b ) ;".toList ∧
    ∃ (us : List Token) (c' d' : Cursor) (id' : NodeId),
      us.map Token.lexeme = Lexeme.enclose false (ts.map Token.lexeme) ∧
      Cursor.start (String.ofList "( a + b ) ;".toList) none = .ok c' ∧
      c'.run (call (.expression [.eol] false)) = (.ok id', d') ∧
      d'.After (.ofText (String.ofList "( a + b ) ;".toList) none) us ∧
      d'.arena.nodeRecord id' = d.arena.nodeRecord id := by
  let name (letter : Char) (column : Nat) : Token :=
    ⟨.var, String.ofList [letter], ⟨⟨1, column⟩, ⟨1, column + 1⟩⟩⟩
  let sign (kind : Kind) (first stop : Nat) : Token := .canonical kind ⟨⟨1, first⟩, ⟨1, stop⟩⟩
  let ts := [name 'a' 1, sign .add 3 4, name 'b' 5]
  have lexed : tokenize "a + b;" none = .ok (ts ++ [sign .eol 6 7, sign .eof 7 7]) := by
    decide +kernel
  let c : Cursor := ⟨⟨"shell", [' ', '+', ' ', 'b', ';'], ⟨1, 2⟩, some .var⟩, name 'a' 1, [],
    .empty, [.lexed (name 'a' 1).text]⟩
  have started : Cursor.start "a + b;" none = .ok c := rfl
  have ends : (c.run (call (.expression [.eol] false))).1.toOption = some 2 ∧
      (c.run (call (.expression [.eol] false))).2.current = sign .eol 6 7 ∧
      (c.run (call (.expression [.eol] false))).2.arena.shape? 2 = some (.binaryOp 0 1) := by
    decide +kernel
  rcases ran : c.run (call (.expression [.eol] false)) with ⟨_ | id, d⟩ <;> rw [ran] at ends
  · cases ends.1
  obtain ⟨result, stop, sum⟩ := ends
  obtain rfl : id = 2 := Option.some.inj result
  have whole : d.After (.ofText "a + b;" none) ts := by
    obtain ⟨_, _, -, -, here⟩ := sound c.depth (.expression [.eol] false) c d _ [] [] 2
      (Cursor.start_at started) (Cursor.run_call_ok.mp ran)
    obtain ⟨_, _, _, -, -, -, reads⟩ := Scanner.emits_of_tokenize lexed
    have after : Scanner.Emits _ (_ ++ sign .eol 6 7 :: d.pending) d.scanner := stop ▸ here.reads
    exact reads.eq_before after nofun ▸ here.reads
  have renders : Scanner.Renders (Lexeme.enclose false (ts.map Token.lexeme) ++ [.sign .eol])
      "( a + b ) ;".toList := by
    have fit := (Scanner.lexemes_of_tokenize lexed rfl).1.enclose.append Lexeme.wellFormed_eol
    exact (congrArg (Scanner.Renders _) (by decide +kernel)).mp fit.renders
  exact ⟨ts, _, _, c, d, _, lexed, rfl, started, ran, sum, whole, renders,
    expression_enclosed lexed rfl started ran whole renders⟩

end ScriptSyntax
