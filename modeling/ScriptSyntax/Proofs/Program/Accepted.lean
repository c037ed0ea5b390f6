import ScriptSyntax.Program
import ScriptSyntax.Proofs.Derivation.Nesting
import ScriptSyntax.Proofs.Derivation.Statement

/-! An accepted program: its tokens make up a block, and its arena holds the tree of the block and
nothing else. -/
namespace ScriptSyntax

theorem Derives.ends_statements {stops : List Kind} {ts : List Token} {next : Token}
    {bs : List Tree} (derives : Derives (.statements stops) ts next bs) :
    stops.contains next.kind = true := by
  induction bs generalizing ts with
  | nil =>
    cases derives with
    | noStatements stop => exact stop
  | cons b rest ih =>
    cases derives with
    | moreStatements _ others => exact ih others

variable {source : String} {file : Option String} {a : Arena}

theorem Cursor.start_at {c : Cursor} (started : start source file = .ok c) :
    c.At (.ofText source file) [] [] := by
  simp only [start] at started
  split at started
  · next t scanner read =>
    cases started
    exact ⟨.cons read .nil, Arena.isForest_empty⟩
  · contradiction

/-- A result with what is seen of it. -/
theorem exists_ok {ε α : Type} {x : Except ε α} {P : α → Prop} [DecidablePred P]
    (seen : x.toOption.any (P ·) = true) : ∃ a, x = .ok a ∧ P a := by
  cases x with
  | ok a => exact ⟨a, rfl, of_decide_eq_true seen⟩
  | error e => cases seen

/-- A tree with what is seen of it, and with what follows for every tree of the source. -/
theorem exists_parse {P Q : Arena → Prop} [DecidablePred P]
    (seen : (parse source file).toOption.any (P ·) = true)
    (follows : ∀ a, parse source file = .ok a → Q a) :
    ∃ a, parse source file = .ok a ∧ P a ∧ Q a := by
  obtain ⟨a, parsed, shown⟩ := exists_ok seen
  exact ⟨a, parsed, shown, follows a parsed⟩

/-- What an accepted source is made of: its tokens before the end of input derive a block, and the
arena is that of the block's tree, with its root set. -/
structure Accepted (source : String) (file : Option String) (ts : List Token) (last : Token)
    (b : Arena) (t : Tree) : Prop where
  tokens : tokenize source file = .ok (ts ++ [last])
  eof : last.kind = .eof
  nodup : (ts ++ [last]).Nodup
  derives : Derives (.block [.eof]) ts last t
  forest : b.IsForest [t]

theorem parse_accepted (accepted : parse source file = .ok a) :
    ∃ ts last b t, Accepted source file ts last b t ∧ a = b.setRoot t.id := by
  simp only [parse, parseTraced] at accepted
  split at accepted
  · simp at accepted
  next c started =>
  have here := Cursor.start_at started
  split at accepted
  · next c' program =>
    simp only [Except.ok.injEq] at accepted
    subst accepted
    simp only [Cursor.program] at program
    split at program
    · next block d run =>
      simp only [Prod.mk.injEq, true_and] at program
      subst program
      simp only [Cursor.run] at run
      cases ran : (Grammar.block [.eof]).exec (Rule.run c.depth) c.point c with
      | none => simp [ran] at run
      | some outcome =>
        rw [ran, Option.getD_some] at run
        subst run
        obtain ⟨ts, t, rfl, derives, here⟩ :=
          (Grammar.block_sound (sound c.depth) here [.eof]).result _ _ ran
        have more := derives.nested.not_eof
        have eof : d.current.kind = .eof := by
          cases derives with
          | block statements => simpa using statements.ends_statements
        have reads : (Scanner.ofText source file).Emits (ts ++ d.current :: d.pending) d.scanner :=
          here.reads
        rw [List.append_cons] at reads
        obtain ⟨s', whole, -⟩ := reads.exists_of_append
        exact ⟨ts, d.current, d.arena, t, ⟨whole.tokenize more eof, eof, whole.nodup more, derives,
          here.forest⟩, rfl⟩
    · simp at program
  · simp at accepted

end ScriptSyntax
