import ScriptSyntax.Proofs.Printing.Suffix
import ScriptSyntax.Proofs.Printing.Text
import ScriptSyntax.Proofs.Program.Faults
import ScriptSyntax.Proofs.Program.Spanning

/-! Parsing undoes printing. A printed expression is read back as one statement, the expression
itself. -/
namespace ScriptSyntax

open Lexeme (sign enclose)

namespace Expr

variable {style : Style} {e : Expr} {next : Kind}

/-- What the parts of a printed expression are read as wherever they may stand: the whole, the
operands of its chain, and the target of a suffix. -/
structure Readable (style : Style) (e : Expr) : Prop where
  reads : Reads e (e.lexemes style)
  first : ∀ ahead, Halts ahead → Stands e.spread.1 (e.spread.1.operand style) ahead
  others : ∀ j ∈ e.spread.2, ∀ ahead, Halts ahead → Stands j.right (j.right.operand style) ahead
  heads : ∀ next : Kind, next.leaf? = none → e.bareTarget next = true →
    Heads e (e.lexemes style) next

theorem readable_of_reads (single : e.spread = (e, [])) (reads : Reads e (e.lexemes style))
    (heads : ∀ next : Kind, next.leaf? = none → e.bareTarget next = true →
      Heads e (e.lexemes style) next) : Readable style e := by
  constructor
  case reads => exact reads
  case first =>
    rw [single]
    exact fun ahead halts => reads.stands_operand halts
  case others => simp [single]
  case heads => exact heads

theorem leaf?_of_closers {k : Kind} (closes : k ∈ closers) : k.leaf? = none := by
  have all : ∀ k ∈ closers, k.leaf?.isNone = true := by decide
  exact Option.isNone_iff_eq_none.mp (all k closes)

/-- What may be a target before a token that ends an expression is a term there. -/
theorem readable_of_heads (single : e.spread = (e, []))
    (bare : ∀ k ∈ closers, e.bareTarget k = true)
    (heads : ∀ next : Kind, next.leaf? = none → e.bareTarget next = true →
      Heads e (e.lexemes style) next) : Readable style e := by
  apply readable_of_reads single _ heads
  apply reads_of_stands (begins_lexemes style e)
  intro next rest closes
  exact (heads next.kind (leaf?_of_closers closes) (bare _ closes)).stands (halts_of_closers closes)

namespace Readable

theorem target (readable : Readable style e) (leaf : next.leaf? = none) :
    Heads e (enclose (style.bare next e) (e.lexemes style)) next := by
  apply readable.reads.heads_enclose
  intro bare
  exact readable.heads next leaf (Bool.and_eq_true _ _ ▸ bare).1

/-- The target goes on with a suffix that begins with the sign. -/
theorem extend {e' : Expr} (readable : Readable style e) (k : Kind) {ls : List Lexeme}
    (leaf : k.written.leaf? = none) (suffix : Extends e e' (sign k :: ls) next) :
    Heads e' (enclose (style.bare k.written e) (e.lexemes style) ++ sign k :: ls) next :=
  (readable.target leaf).extend suffix

theorem side_first (readable : Readable style e) (bare : Bool) (ahead : List Lexeme)
    (halts : Halts ahead) : Stands (if bare then e.spread else (e, [])).1
      ((if bare then e.spread else (e, [])).1.operand style) ahead := by
  cases bare with
  | true => exact readable.first ahead halts
  | false => exact readable.reads.stands_operand halts

theorem side_others (readable : Readable style e) (bare : Bool) :
    ∀ j ∈ (if bare then e.spread else (e, [])).2, ∀ ahead, Halts ahead →
      Stands j.right (j.right.operand style) ahead := by
  cases bare with
  | true => exact readable.others
  | false => simp

theorem binary {op : Kind} {joins : op.isBinaryOperator = true} {left right : Expr}
    (first : Readable style left) (second : Readable style right) :
    Readable style (.binary op joins left right) := by
  have others : ∀ j ∈ (Expr.binary op joins left right).spread.2, ∀ ahead, Halts ahead →
      Stands j.right (j.right.operand style) ahead := by
    intro j member
    simp only [spread, List.mem_append, List.mem_cons] at member
    rcases member with inside | rfl | inside
    · exact first.side_others _ j inside
    · exact second.side_first _
    · exact second.side_others _ j inside
  constructor
  case reads => exact reads_chain rfl (first.side_first _) others
  case first => exact first.side_first _
  case others => exact others
  case heads => exact fun next _ bare => absurd bare Bool.false_ne_true

theorem trailing {op : Kind} (known : op ∈ Fixity.trailing.operators)
    (readable : Readable style e) : Readable style (.unary .trailing op known e) := by
  have closes : ∀ k ∈ closers, (Expr.unary .trailing op known e).bareTarget k = true := by
    intro k member
    simp [bareTarget, (apart_of_closers member).1]
  have leaf : ∀ op ∈ Fixity.trailing.operators, op.written.leaf?.isNone = true := by decide
  apply readable_of_heads rfl closes
  intro next atom bare
  have apart : op = .deref → Grammar.beginsTerm next = false := by
    intro is
    simpa [bareTarget, is] using bare
  exact readable.extend op (Option.isNone_iff_eq_none.mp (leaf op known))
    (extends_trailing known apart atom)

end Readable

theorem readable (style : Style) (e : Expr) : Readable style e := by
  induction e using ofParts with
  | step e ih =>
    cases e with
    | atom a =>
      apply readable_of_reads rfl
      · apply reads_of_stands (begins_lexemes style _)
        intro next rest closes
        exact stands_atom a (halts_of_closers closes)
      · exact fun next _ bare => heads_atom bare
    | binary op joins left right =>
      exact .binary (ih left (by simp [parts])) (ih right (by simp [parts]))
    | ternary left center right =>
      apply readable_of_reads rfl
      · exact reads_ternary (ih left (by simp [parts])).reads (ih center (by simp [parts])).reads
          (ih right (by simp [parts])).reads
      · exact fun next _ bare => absurd bare Bool.false_ne_true
    | unary fixity op known operand =>
      have inner := ih operand (by simp [parts])
      cases fixity with
      | leading =>
        apply readable_of_reads rfl
        · apply reads_of_stands (begins_lexemes style _)
          intro next rest closes
          exact stands_leading known inner.reads (halts_of_closers closes)
        · exact fun next _ bare => absurd bare Bool.false_ne_true
      | trailing => exact inner.trailing known
    | rounded operand places =>
      apply readable_of_heads rfl (fun _ _ => rfl)
      intro next _ _
      exact (ih operand (by simp [parts])).extend .round rfl extends_rounded
    | index target place =>
      apply readable_of_heads rfl (fun _ _ => rfl)
      intro next _ _
      have suffix := @extends_index style target next place (ih place (by simp [parts])).reads
      exact (ih target (by simp [parts])).extend .arrOpen rfl suffix
    | slice target start stop step =>
      apply readable_of_heads rfl (fun _ _ => rfl)
      intro next _ _
      have last : ∀ e ∈ step, Reads e (e.lexemes style) := fun e inside =>
        (ih e (by simp [parts, Option.mem_def.mp inside])).reads
      have suffix := @extends_slice style target next start stop step
        (ih start (by simp [parts])).reads (ih stop (by simp [parts])).reads last
      exact (ih target (by simp [parts])).extend .arrOpen rfl suffix
    | get target property optional =>
      apply readable_of_heads rfl (fun _ _ => rfl)
      intro next _ _
      have suffix := @extends_get style target next property
        (property.isName && style.property property) optional
        (fun bare => (Bool.and_eq_true _ _ ▸ bare).1) (ih property (by simp [parts])).reads
      have inner := ih target (by simp [parts])
      cases optional with
      | true => exact inner.extend .optChain rfl suffix
      | false => exact inner.extend .period rfl suffix
    | call target args =>
      apply readable_of_heads rfl (fun _ _ => rfl)
      intro next _ _
      have suffix := @extends_call style target next args fun e inside =>
        (ih e (by simp [parts, inside])).reads
      exact (ih target (by simp [parts])).extend .parOpen rfl suffix
    | list linked items =>
      apply readable_of_heads rfl (fun _ _ => rfl)
      intro next _ _
      exact heads_list (fun e inside => (ih e inside).reads) next
    | set items =>
      apply readable_of_heads rfl (fun _ _ => rfl)
      intro next _ _
      exact heads_set (fun e inside => (ih e inside).reads) next

end Expr

variable {α : Type} {s : Scanner} {c : Cursor}

/-- What a parse gives if calls may nest deep enough it gives at the cursor, as it ends there. -/
theorem Gives.run {p : Parse α} {post : α → Cursor → Prop} (gives : Gives p c post)
    (follows : c.Follows s)
    (walk : p.Proceeds 4 false c.current.kind fun _ _ _ => True) :
    ∃ a c', c.run p = (.ok a, c') ∧ post a c' := by
  obtain ⟨depth, a, c', ran, holds⟩ := gives
  refine ⟨a, c', ?_, holds⟩
  -- The depth of the run need not be the one that is enough, so both are compared at the greater.
  have deep := Parse.exec_of_le (Nat.le_max_left depth c.depth) (ran c.point)
  rw [Cursor.run]
  rcases follows.run walk with ⟨b, d, ended, -⟩ | ⟨e, d, ended, -⟩
  all_goals
    have same := Parse.exec_of_le (Nat.le_max_right depth c.depth) ended
    rw [deep] at same
    cases same
  rw [ended]
  rfl

namespace Expr

variable {style : Style} {e : Expr} {forest : List Tree}

/-- A term begins no directive, and no statement that is not an expression. -/
theorem plain_of_beginsTerm {k : Kind} (begins : Grammar.beginsTerm k = true) :
    k.isDirective = false ∧ k.isModifier = false ∧
      k ∉ [Kind.eof, .returnKw, .deferKw, .passKw, .continueKw, .breakKw, .eol, .atSign] := by
  have plain := Kind.of_all (Q := fun k => k.isDirective = false ∧ k.isModifier = false ∧
    k ∉ [Kind.eof, .returnKw, .deferKw, .passKw, .continueKw, .breakKw, .eol, .atSign])
    (by decide +kernel) begins
  exact of_decide_eq_true plain

/-- A printed expression is read as a statement. -/
theorem statement_reached (here : c.Before (e.lexemes style ++ [sign .eol, ⟨.eof, ""⟩]) forest) :
    Gives Grammar.statement c (e.Reached [⟨.eof, ""⟩] forest) := by
  refine here.announce.bind fun _ c₁ here => ?_
  obtain ⟨noDirective, noModifier, other⟩ :=
    plain_of_beginsTerm ((begins_lexemes style e).current here)
  refine Gives.current.mpr ?_
  rw [if_neg (by simp [noDirective])]
  have read : Gives Grammar.plainStatement c₁
      (e.Reached [sign .eol, ⟨.eof, ""⟩] forest) := by
    refine Gives.current.mpr ?_
    simp only [List.mem_cons, List.not_mem_nil, or_false, not_or] at other
    split
    -- Of what a statement may be only the last is an expression.
    case h_7 =>
      simp only [other, noModifier, decide_false, Bool.or_self, Bool.false_eq_true, if_false]
      exact .call ((readable style e).reads (by decide) (by decide) here)
    all_goals simp_all
  refine read.bind ?_
  rintro _ c₂ ⟨t, rfl, settled, shown, here⟩
  refine (here.expect rfl (by simp)).bind ?_
  rintro _ c₃ ⟨-, here⟩
  exact .pure ⟨t, rfl, settled, shown, here⟩

/-- A printed expression is read as a block of one statement. -/
theorem block_reached (here : c.Before (e.lexemes style ++ [sign .eol, ⟨.eof, ""⟩]) []) :
    Gives (Grammar.block [.eof]) c fun i c' => ∃ t, e.Shows t ∧
      c'.arena.IsForest [.node i (.block [t]) none false] := by
  have notEof : c.current.kind ≠ .eof := fun eof => by
    have plain := plain_of_beginsTerm ((begins_lexemes style e).current here)
    simp [eof] at plain
  have read : Gives (Grammar.statements [.eof]) c fun ids c' => ∃ t : Tree, ids = [t.id] ∧
      e.Shows t ∧ c'.Before [⟨.eof, ""⟩] [t] := by
    refine Gives.isAtAny.mpr ?_
    rw [if_neg (by simpa using notEof)]
    refine Gives.isAt.mpr ?_
    rw [if_neg (by simpa using notEof)]
    refine Gives.bind (.call (statement_reached here)) ?_
    rintro _ c₁ ⟨t, rfl, -, shown, here⟩
    have last : Gives (Grammar.statements [.eof]) c₁ fun ids c' => ids = [] ∧ c' = c₁ := by
      refine Gives.isAtAny.mpr ?_
      rw [here.kind]
      exact .pure ⟨rfl, rfl⟩
    refine Gives.bind (.call last) ?_
    rintro _ _ ⟨rfl, rfl⟩
    exact .pure ⟨t, rfl, shown, here⟩
  refine Gives.bind (.call read) ?_
  rintro _ c₁ ⟨t, rfl, shown, here⟩
  refine (here.add [] (.block [t]) rfl rfl).imp fun i c₂ here => ?_
  obtain ⟨_, _, _, _, placed, -, -⟩ := here
  exact ⟨t, shown, placed.forest⟩

end Expr

/-- However the tokens of a printed expression are rendered, they are parsed to a block of one
statement, which is the expression. -/
theorem parse_of_renders {style : Style} {e : Expr} {text : List Char}
    (renders : Scanner.Renders (e.lexemes style ++ [sign .eol]) text) (file : Option String) :
    ∃ a root t, parse (String.ofList text) file = .ok a ∧ a.root = some root ∧
      a.Holds (.node root (.block [t]) none false) ∧ e.Shows t := by
  have free : Lexeme.Free (e.lexemes style ++ [sign .eol]) := e.free_statement
  obtain ⟨ts, s', reads, same⟩ := renders.emits (s := .ofText (String.ofList text) file)
    free.wellFormed .nil (by simp [Scanner.ofText])
  obtain ⟨c, started⟩ : ∃ c, Cursor.start (String.ofList text) file = .ok c := by
    cases reads with
    | nil => simp at same
    | cons read _ => exact ⟨_, by rw [Cursor.start, read]⟩
  have placed := Cursor.start_at started
  have here : c.Before (e.lexemes style ++ [sign .eol, ⟨.eof, ""⟩]) [] :=
    ⟨_, [], ts, s', placed, reads, by simpa using same⟩
  obtain ⟨root, c', ran, t, shown, forest⟩ :=
    (Expr.block_reached here).run ⟨[], placed.reads⟩ (block_proceeds [.eof] _)
  refine ⟨c'.arena.setRoot root, root, t, ?_, rfl, forest.holds_setRoot, shown⟩
  simp only [parse, parseTraced, started, Cursor.program, ran]

/-- A printed expression is parsed to a block of one statement, which is the expression. -/
theorem parse_printed (style : Style) (e : Expr) (file : Option String) :
    ∃ a root t, parse (e.text style) file = .ok a ∧ a.root = some root ∧
      a.Holds (.node root (.block [t]) none false) ∧ e.Shows t :=
  parse_of_renders e.free_statement.renders file

/-- The product of a sum and a dereference. -/
example :
    let this : Expr := .atom ⟨sign .thisKw, .name, rfl, fun _ => Lexeme.fits_sign (by decide)⟩
    let sum : Expr := .binary .add rfl this this
    let target : Expr := .unary .trailing .deref (by decide) this
    (Expr.binary .multiply rfl sum target).text ⟨fun _ _ => true, fun _ => true⟩ =
      "( this + this ) * ( this & ) ;" := by
  decide +kernel

end ScriptSyntax
