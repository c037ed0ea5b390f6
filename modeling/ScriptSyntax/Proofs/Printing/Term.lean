import ScriptSyntax.Proofs.Precedence.Phrase
import ScriptSyntax.Proofs.Printing.Chain
import ScriptSyntax.Proofs.Printing.Gives

/-! Printed expressions as terms: by what they begin, before what they end, and what atoms are read
as. What may be the target of a suffix leaves it to what comes next whether the term goes on. -/
namespace ScriptSyntax

open ScriptSyntax.Tree (settled_of_plain)

theorem Grammar.atomShape?_of_leaf? {k : Kind} {shape : Shape Tree} (leaf : k.leaf? = some shape) :
    atomShape? k = some (shape.map Tree.id) ∧ shape.children = [] := by
  unfold Kind.leaf? at leaf
  split at leaf <;> first | contradiction | (cases leaf; exact ⟨rfl, rfl⟩)

/-- The kinds that go on with an operand. -/
def suffixes : List Kind :=
  [.arrOpen, .period, .optChain, .parOpen, .increment, .decrement, .totalRef, .bAnd, .round]

/-- The kinds of tokens that a printed expression stands before. -/
def closers : List Kind := [.eol, .comma, .colon, .direct, .parClose, .arrClose, .setClose]

theorem apart_of_closers {k : Kind} (closes : k ∈ closers) :
    Grammar.beginsTerm k = false ∧ k ∉ suffixes := by
  revert k
  decide

theorem Kind.apart_of_isBinaryOperator {op : Kind} (joins : op.isBinaryOperator = true) :
    op.written = op ∧ op ∉ closers ∧ op ∉ Grammar.assigners ∧ op ≠ .ternary ∧
      (op ∈ suffixes → op = .bAnd) := by
  have apart := Kind.of_all (Q := fun op => op.written = op ∧ op ∉ closers ∧
    op ∉ Grammar.assigners ∧ op ≠ .ternary ∧ (op ∈ suffixes → op = .bAnd)) (by decide)
    joins
  exact of_decide_eq_true apart

/-- Whether an operand that needs no parentheses, or has them, begins with a token of the kind. -/
def beginsOperand (k : Kind) : Bool := k.leaf?.isSome || k = .parOpen

theorem apart_of_beginsOperand {k : Kind} (begins : beginsOperand k = true) :
    Grammar.beginsTerm k = true ∧ Grammar.namesPlainType k = false ∧ k ≠ .multiply ∧
      Grammar.opensContainer k = false := by
  have apart := Kind.of_all (Q := fun k => Grammar.beginsTerm k ∧ ¬ Grammar.namesPlainType k ∧
    k ≠ .multiply ∧ ¬ Grammar.opensContainer k) (by decide) begins
  simpa using apart

namespace Expr

open Lexeme

theorem Shows.freeze {e : Expr} {t : Tree} (shown : e.Shows t) : e.Shows t.freeze := by
  cases shown <;> constructor <;> assumption

/-- The expression was read as the last tree of the forest, and the tokens are still ahead. -/
def Reached (e : Expr) (ahead : List Lexeme) (forest : List Tree) (i : NodeId) (c : Cursor) :
    Prop :=
  ∃ t : Tree, i = t.id ∧ t.Settled ∧ e.Shows t ∧ c.Before ahead (forest ++ [t])

/-- Whether an operand ends before the tokens. -/
inductive Halts : List Lexeme → Prop where
  | other {l : Lexeme} {ls : List Lexeme} (apart : l.kind ∉ suffixes) : Halts (l :: ls)
  | joined {l m : Lexeme} {ls : List Lexeme} (is : l.kind = .bAnd)
      (begins : Grammar.beginsTerm m.kind = true) : Halts (l :: m :: ls)

/-- Whether the tokens are read as the expression where a term is read before others. -/
def Stands (e : Expr) (ls ahead : List Lexeme) : Prop :=
  ∀ ⦃stops : List Kind⦄ ⦃c : Cursor⦄ ⦃forest : List Tree⦄, c.Before (ls ++ ahead) forest →
    Gives (Grammar.term stops) c (e.Reached ahead forest)

/-- Whether a term that begins with the tokens goes on with suffixes of the expression before one
of the kind. -/
def Heads (e : Expr) (ls : List Lexeme) (next : Kind) : Prop :=
  ∀ ⦃stops : List Kind⦄ ⦃c : Cursor⦄ ⦃l : Lexeme⦄ ⦃rest : List Lexeme⦄ ⦃forest : List Tree⦄
    ⦃post : NodeId → Cursor → Prop⦄, l.kind = next → c.Before (ls ++ l :: rest) forest →
    (∀ i c', e.Reached (l :: rest) forest i c' → Gives (Parse.call (.suffix i)) c' post) →
    Gives (Grammar.term stops) c post

variable {e target : Expr} {style : Style} {ls ahead rest : List Lexeme} {l m : Lexeme} {c : Cursor}
  {forest : List Tree} {i : NodeId} {stops : List Kind} {post : NodeId → Cursor → Prop}
  {next : Kind}

/-- A new node is the last tree of the forest. -/
theorem Reached.add {ids : Shape NodeId} {token : Token} {trees : List Tree} (shape : Shape Tree)
    (here : c.Before ahead trees) (split : trees = forest ++ shape.children)
    (same : ids = shape.map Tree.id) (plain : shape.left? = none)
    (made : ∀ i, e.Shows (.node i shape (some token) false)) :
    Gives (Parse.add ids (some token)) c (e.Reached ahead forest) := by
  refine (here.add forest shape same split).imp fun i c' later => ?_
  have settled : (Tree.node i shape (some token) false).Settled :=
    settled_of_plain (by simp [Tree.isOperator, plain])
  exact ⟨_, rfl, settled, made i, later⟩

theorem suffix_halts (halts : Halts ahead) (here : c.Before ahead forest) :
    Gives (Grammar.suffix i) c fun j c' => j = i ∧ c'.Before ahead forest := by
  cases halts with
  | @other l ls apart =>
    refine here.current ?_
    simp only [suffixes, List.mem_cons, List.not_mem_nil, or_false, not_or] at apart
    split
    all_goals first | exact .pure ⟨rfl, here⟩ | simp_all
  | @joined l m ls is begins =>
    refine here.current ?_
    rw [is]
    refine here.peek.bind ?_
    rintro k c' ⟨rfl, later⟩
    rw [if_pos begins]
    exact .pure ⟨rfl, later⟩

/-- A term ends before what goes on with no operand. -/
theorem Heads.stands (heads : Heads e ls l.kind) (halts : Halts (l :: rest)) :
    Stands e ls (l :: rest) := by
  intro stops c forest here
  apply heads rfl here
  rintro i c' ⟨t, rfl, settled, made, later⟩
  refine .call ((suffix_halts halts later).imp ?_)
  rintro j c'' ⟨rfl, later⟩
  exact ⟨t, rfl, settled, made, later⟩

/-- A name or a string may go on, any other atom is a term by itself. -/
theorem term_atom {a : Atom} (here : c.Before (a.lexeme :: l :: rest) forest)
    (more : ∀ i c', (Expr.atom a).Reached (l :: rest) forest i c' →
      Gives (if Grammar.namesValue a.lexeme.kind || a.lexeme.kind = .strVal
        then Parse.call (.suffix i) else pure i) c' post) :
    Gives (Grammar.term stops) c post := by
  obtain ⟨found, leaf⟩ := Grammar.atomShape?_of_leaf? a.leaf
  have plain : a.shape.left? = none := by
    have leaf := Tree.isOperator_of_leaf (i := 0) (k := none) (f := false) leaf
    simpa [Tree.isOperator] using leaf
  refine here.current ?_
  simp only [found]
  refine (here.shift (by simp)).bind ?_
  rintro token c₁ ⟨own, here⟩
  have made (i : NodeId) : (Expr.atom a).Shows (.node i a.shape (some token) false) := .atom own
  exact (Reached.add a.shape here (by simp [leaf]) rfl plain made).bind more

theorem heads_atom {a : Atom} (bare : (Expr.atom a).bareTarget next = true) :
    Heads (.atom a) [a.lexeme] next := by
  intro stops c l rest forest post is here more
  refine term_atom here fun i c' reached => ?_
  rw [bareTarget] at bare
  rw [if_pos bare]
  exact more i c' reached

theorem stands_atom (a : Atom) (halts : Halts (l :: rest)) :
    Stands (.atom a) [a.lexeme] (l :: rest) := by
  by_cases bare : (Expr.atom a).bareTarget l.kind = true
  · exact (heads_atom bare).stands halts
  · intro stops c forest here
    refine term_atom here fun i c' reached => ?_
    rw [bareTarget] at bare
    rw [if_neg bare]
    exact .pure reached

/-- Whether the tokens begin as a term may. -/
inductive Begins : List Lexeme → Prop where
  | term {l : Lexeme} {ls : List Lexeme} (begins : Grammar.beginsTerm l.kind = true) :
      Begins (l :: ls)

theorem Begins.current (begins : Begins ls) (here : c.Before (ls ++ ahead) forest) :
    Grammar.beginsTerm c.current.kind = true := by
  cases begins with
  | term begins =>
    rw [here.kind]
    exact begins

theorem Begins.goesOn (begins : Begins ls) (here : c.Before (ls ++ ahead) forest) :
    c.current.kind ∉ closers := by
  intro closes
  have term := begins.current here
  simp [(apart_of_closers closes).1] at term

theorem Begins.append (begins : Begins ls) (ahead : List Lexeme) : Begins (ls ++ ahead) := by
  cases begins with
  | term begins => exact .term begins

theorem Begins.enclose (begins : Begins ls) (bare : Bool) : Begins (enclose bare ls) := by
  cases bare with
  | true => exact begins
  | false => exact .term rfl

theorem operand_cons (style : Style) (e : Expr) :
    ∃ l ls, e.operand style = l :: ls ∧ beginsOperand l.kind = true := by
  cases e with
  | atom a =>
    refine ⟨a.lexeme, [], by simp [operand, isAtom, enclose, lexemes], ?_⟩
    simp [beginsOperand, a.leaf]
  | _ => exact ⟨sign .parOpen, _, rfl, rfl⟩

theorem begins_operand (style : Style) (e : Expr) : Begins (e.operand style) := by
  obtain ⟨l, ls, same, begins⟩ := operand_cons style e
  exact same ▸ .term (apart_of_beginsOperand begins).1

theorem begins_lexemes (style : Style) (e : Expr) : Begins (e.lexemes style) := by
  match e with
  | atom a =>
    have begins : beginsOperand a.lexeme.kind = true := by simp [beginsOperand, a.leaf]
    exact .term (apart_of_beginsOperand begins).1
  | unary .leading op known _ =>
    have all : ∀ op ∈ Fixity.leading.operators, Grammar.beginsTerm op.written = true := by decide
    exact .term (all op known)
  | list linked _ =>
    cases linked <;> exact .term rfl
  | set _ => exact .term rfl
  | binary _ _ e _ | ternary e _ _ | unary .trailing _ _ e | rounded e _ | index e _ | slice e _ _ _
  | get e _ _ | call e _ =>
    rw [lexemes]
    exact ((begins_lexemes style e).enclose _).append _

theorem halts_of_closers (closes : l.kind ∈ closers) : Halts (l :: rest) :=
  .other (apart_of_closers closes).2

theorem halts_joint (j : Joint) (ls : List Lexeme) : Halts (j.lexemes style ++ ls) := by
  obtain ⟨l, ms, same, begins⟩ := operand_cons style j.right
  obtain ⟨own, -, -, -, only⟩ := Kind.apart_of_isBinaryOperator j.joins
  rw [Joint.lexemes, same, sign, own]
  by_cases is : j.op = .bAnd
  · exact .joined is (apart_of_beginsOperand begins).1
  · exact .other fun inside => is (only inside)

theorem halts_joints (js : List Joint) (closes : l.kind ∈ closers) :
    Halts (js.flatMap (Joint.lexemes style) ++ l :: rest) := by
  cases js with
  | nil => exact halts_of_closers closes
  | cons j js =>
    rw [List.flatMap_cons, List.append_assoc]
    exact halts_joint j _

end Expr
end ScriptSyntax
