import ScriptSyntax.Proofs.Calls.Joined
import ScriptSyntax.Proofs.Extension.Block
import ScriptSyntax.Proofs.Program.Layout
import ScriptSyntax.Proofs.Record.Embedding

/-! Programs concatenate. The statements of a text and of another one behind a line feed are those
of the first and then those of the second, if nothing at the seam reads as one with what is before
it: a sign in front of a number does after an operand. -/
namespace ScriptSyntax

open Parse

variable {source source' : String} {file file' : Option String} {a b : Arena} {first last : Token}
  {ts us : List Token} {depth : Nat} {start : Point} {c c' d : Cursor} {id : NodeId}
  {ids : List NodeId}

theorem Grammar.exec_block_ok :
    (Grammar.block [.eof]).exec (Rule.run depth) start c = some (.ok id, d) ↔
      ∃ ids e, Rule.program.run depth c = some (.ok ids, e) ∧
        id = e.arena.size ∧ d = (e.add (.block ids) none).2 := by
  rw [Grammar.block, exec_bind_ok]
  refine exists₂_congr fun ids e => and_congr ?_ ?_
  · exact iff_of_eq (congrArg (· = _) (exec_perform _))
  · constructor
    · rintro ⟨⟩
      exact ⟨rfl, rfl⟩
    · rintro ⟨rfl, rfl⟩
      rfl

/-- A source is accepted if its statements are read, which then stand under a block. -/
theorem parse_ok_iff : parse source file = .ok a ↔ ∃ c depth ids d,
    Cursor.start source file = .ok c ∧ Rule.program.run depth c = some (.ok ids, d) ∧
      a = d.arena.rooted ids := by
  simp only [parse, parseTraced]
  cases started : Cursor.start source file with
  | error e => simp
  | ok c =>
  have whole (depth : Nat) (le : c.depth ≤ depth) :
      (Grammar.block [.eof]).exec (Rule.run depth) c.point c =
        some (c.run (Grammar.block [.eof])) :=
    Cursor.exec_eq_run (block_proceeds [.eof] c.current.kind) le
  simp only [Cursor.program]
  constructor
  · intro accepted
    have ends := whole c.depth (Nat.le_refl _)
    generalize c.run (Grammar.block [.eof]) = outcome at accepted ends
    obtain ⟨e | id, d⟩ := outcome
    · cases accepted
    · obtain ⟨ids, e, ran, rfl, rfl⟩ := Grammar.exec_block_ok.mp ends
      cases accepted
      exact ⟨c, _, ids, e, rfl, ran, rfl⟩
  · rintro ⟨_, depth, ids, d, same, ran, rfl⟩
    cases same
    have ran := Rule.run_of_le (Nat.le_max_left depth c.depth) ran
    have same := (whole _ (Nat.le_max_right ..)).symm.trans
      (Grammar.exec_block_ok.mpr ⟨ids, d, ran, rfl, rfl⟩)
    rw [Option.some.inj same]
    rfl

/-- Neither `else` nor `catch` begins a program. -/
theorem starts_apart (accepted : parse source file = .ok a)
    (lexed : tokenize source file = .ok (first :: ts)) : first.kind ∉ [.elseKw, .catchKw] := by
  obtain ⟨c, depth, ids, d, started, ran, -⟩ := parse_ok_iff.mp accepted
  obtain ⟨us, last, s', same, -, -, reads⟩ := Scanner.emits_of_tokenize lexed
  have here : c.current = first := by
    have given := (Cursor.start_at started).reads
    exact Cursor.eq_of_prefix_total (given.prefix_total reads)
  rw [← here]
  cases depth with
  | zero => cases ran
  | succ depth =>
    by_cases eof : c.current.kind = .eof
    · simp [eof]
    · obtain ⟨id, others, e, -, ran, -⟩ := (Rule.run_program_of_ne eof).mp ran
      exact Rule.run_statement_apart ran

/-- Programs are read alike from cursors that are alike. -/
theorem Cursor.Alike.program {base : Arena} {s : Scanner} {taken : List Token} {forest : List Tree}
    (alike : Alike base c c') (here : c.At s taken forest)
    (ran : Rule.program.run depth c = some (.ok ids, d)) : ∃ d',
      Rule.program.run depth c' = some (.ok (ids.map (base.size + ·)), d') ∧
        d'.arena.unplaced = d.arena.atop base := by
  obtain ⟨_, d', ran', same, after⟩ := alike.call (.of_forest here.forest) rfl ran
  refine ⟨d', ?_, after.arena⟩
  simp only [Yield.lifted, Nat.zero_add, List.map_id'] at same
  rw [same, ran']

/-- The joined text goes on with the tokens of the second where those of the first end. -/
theorem exists_extension (lexed : tokenize source file = .ok (ts ++ [last]))
    (accepted : parse source' file' = .ok b)
    (lexed' : tokenize source' file' = .ok (first :: us))
    (apart : ts = [] ∨ ts.getLast?.any (·.kind = .eol) = true ∨ first.isNegative = false)
    (file'' : Option String) : ∃ (x : Extension) (others : Nat → Token),
      (Scanner.ofText source file).Gives x.short ∧
      (Scanner.ofText source' file').Gives others ∧
      (Scanner.ofText (source ++ "\n" ++ source') file'').Gives x.long ∧
      AlikeFrom others x.long 0 x.size := by
  obtain ⟨more, eof, -⟩ := Scanner.ends_of_tokenize lexed
  obtain ⟨vs, last', -, same', -, -, -⟩ := Scanner.emits_of_tokenize lexed'
  have gives' := Scanner.gives_of_tokenize (same' ▸ lexed')
  have begins : vs[0]?.getD last' = first := by
    cases vs <;> cases same' <;> rfl
  obtain ⟨tokens, gives'', inside, past⟩ :=
    Scanner.gives_joined lexed gives' (begins.symm ▸ apart) file''
  have ends := endsAt_of_tokens more eof
  have seam : (tokens ts.length).kind = first.kind := begins ▸ Token.Alike.kind (past 0)
  refine ⟨⟨⟨_, tokens, ts.length, fun i bound => ?_⟩, ends, ?_⟩, _,
    Scanner.gives_of_tokenize lexed, gives', gives'', fun n => ?_⟩
  · simp [inside i bound, bound]
  · rw [seam]
    exact starts_apart accepted lexed'
  · rw [Nat.zero_add]
    exact (past n).symm

/-- The statements of two texts, read from both with a line feed between them. -/
theorem parse_append (accepted : parse source file = .ok a)
    (accepted' : parse source' file' = .ok b)
    (lexed : tokenize source file = .ok (ts ++ [last]))
    (lexed' : tokenize source' file' = .ok (first :: us))
    (apart : ts = [] ∨ ts.getLast?.any (·.kind = .eol) = true ∨ first.isNegative = false)
    (file'' : Option String) : ∃ z xs ys, parse (source ++ "\n" ++ source') file'' = .ok z ∧
      a.record = .block xs ∧ b.record = .block ys ∧ z.record = .block (xs ++ ys) := by
  obtain ⟨x, others, gives, gives', gives'', alike⟩ :=
    exists_extension lexed accepted' lexed' apart file''
  obtain ⟨c, depth, _, d, started, ran, rfl⟩ := parse_ok_iff.mp accepted
  obtain ⟨c', depth', _, d', started', ran', rfl⟩ := parse_ok_iff.mp accepted'
  obtain ⟨_, same, walks⟩ := Cursor.start_walks gives
  cases started.symm.trans same
  obtain ⟨_, same, walks'⟩ := Cursor.start_walks gives'
  cases started'.symm.trans same
  obtain ⟨c'', started'', walks''⟩ := Cursor.start_walks gives''
  obtain ⟨_, trees, rfl, -, here⟩ :=
    sound depth Rule.program c d _ [] [] _ (Cursor.start_at started) ran
  obtain ⟨_, trees', rfl, -, here'⟩ :=
    sound depth' Rule.program c' d' _ [] [] _ (Cursor.start_at started') ran'
  -- The first program is read off the joined text, with the same nodes.
  have abreast : x.Abreast 0 c c'' := ⟨walks, walks'', Nat.zero_le _, by
    rw [Cursor.start_arena started, Cursor.start_arena started'']⟩
  obtain ⟨seam, between, rest⟩ := abreast.program ran
  -- The second one is read from the seam on, and puts its nodes on top.
  have forest : d.arena.IsForest trees := here.forest
  have forest' : d'.arena.IsForest trees' := here'.forest
  have bare : Arena.empty.atop d.arena.unplaced = d.arena.unplaced := by
    simp [Arena.atop, Arena.unplaced, Arena.empty, forest.rootless]
  have alike : Cursor.Alike d.arena.unplaced c' seam := .of_walks walks' between.second alike (by
    rw [between.arena, Cursor.start_arena started', bare])
  obtain ⟨e, ran'', after⟩ := alike.program (Cursor.start_at started') ran'
  obtain ⟨depth'', whole⟩ := rest depth' _ e ran''
  refine ⟨_, _, _, parse_ok_iff.mpr ⟨c'', depth'', _, e, started'', whole, rfl⟩,
    forest.record_rooted, forest'.record_rooted, ?_⟩
  have size : d.arena.unplaced.size = d.arena.size := d.arena.size_unplaced
  rw [size]
  exact forest.record_atop forest' after

/-- The minus of the second text is a sign, since the first one ends in a `;`. -/
theorem parse_append_minus : ∃ a b ts last first us,
    parse "x = 1;" none = .ok a ∧ a.shape? 2 = some (.assignment 0 1 false) ∧
      parse "-2 + y;" none = .ok b ∧ b.shape? 2 = some (.binaryOp 0 1) ∧
      tokenize "x = 1;" none = .ok (ts ++ [last]) ∧ tokenize "-2 + y;" none = .ok (first :: us) ∧
      first.isNegative = true ∧ ts.getLast?.any (·.kind = .eol) = true ∧
      ∃ z xs ys, parse ("x = 1;" ++ "\n" ++ "-2 + y;") none = .ok z ∧
        (z.shape? 6 = some (.block [2, 5]) ∧ z.shape? 2 = some (.assignment 0 1 false) ∧
          z.shape? 5 = some (.binaryOp 3 4)) ∧
        a.record = .block xs ∧ b.record = .block ys ∧ z.record = .block (xs ++ ys) := by
  have binds : (parse "x = 1;" none).toOption.any
      (·.shape? 2 = some (.assignment 0 1 false)) = true := by decide +kernel
  have adds : (parse "-2 + y;" none).toOption.any
      (·.shape? 2 = some (.binaryOp 0 1)) = true := by decide +kernel
  have both : (parse ("x = 1;" ++ "\n" ++ "-2 + y;") none).toOption.any (fun z =>
      z.shape? 6 = some (.block [2, 5]) ∧ z.shape? 2 = some (.assignment 0 1 false) ∧
        z.shape? 5 = some (.binaryOp 3 4)) = true := by decide +kernel
  have closes : (tokenize "x = 1;" none).toOption.any
      (fun ts => ts.dropLast.getLast?.any (·.kind = .eol) = true) = true := by decide +kernel
  have minus : (tokenize "-2 + y;" none).toOption.any
      (fun ts => ts.head?.any Token.isNegative = true) = true := by decide +kernel
  obtain ⟨a, accepted, bound⟩ := exists_ok binds
  obtain ⟨b, accepted', added⟩ := exists_ok adds
  obtain ⟨whole, lexed, closed⟩ := exists_ok closes
  obtain ⟨whole', lexed', negative⟩ := exists_ok minus
  obtain ⟨ts, last, -, rfl, -⟩ := Scanner.emits_of_tokenize lexed
  rw [List.dropLast_concat] at closed
  cases whole' with
  | nil => cases negative
  | cons first us =>
    obtain ⟨z, xs, ys, joined, records⟩ :=
      parse_append accepted accepted' lexed lexed' (.inr (.inl closed)) none
    obtain ⟨z', joined', shown⟩ := exists_ok both
    cases joined.symm.trans joined'
    exact ⟨a, b, ts, last, first, us, accepted, bound, accepted', added, lexed, lexed', negative,
      closed, z, xs, ys, joined, shown, records⟩

end ScriptSyntax
