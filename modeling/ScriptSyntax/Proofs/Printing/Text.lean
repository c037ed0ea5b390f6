import ScriptSyntax.Proofs.Printing.Expr
import ScriptSyntax.Proofs.Scan.Rendering

/-! The tokens of a printed expression are read back from its text. Each of them may follow any
other, so only the spaces between them matter. -/
namespace ScriptSyntax

theorem Kind.spelled_of_isBinaryOperator {op : Kind} (joins : op.isBinaryOperator = true) :
    op.spelling ≠ "" := by
  have spelled := Kind.of_all (Q := fun op => op.spelling ≠ "") (by decide) joins
  simpa using spelled

theorem Fixity.spelled_of_mem {fixity : Fixity} {op : Kind} (known : op ∈ fixity.operators) :
    op.spelling ≠ "" := by
  have all : ∀ op ∈ fixity.operators, op.spelling ≠ "" := by cases fixity <;> decide
  exact all op known

namespace Lexeme

/-- Whether the tokens may follow any others. -/
def Free (ls : List Lexeme) : Prop := ∀ l ∈ ls, ∀ previous, l.Fits previous

variable {ls ms : List Lexeme} {l : Lexeme} {previous : Option Kind}

@[simp] theorem free_nil : Free [] := by
  simp [Free]

@[simp] theorem free_cons : Free (l :: ls) ↔ (∀ previous, l.Fits previous) ∧ Free ls :=
  List.forall_mem_cons

@[simp] theorem free_append : Free (ls ++ ms) ↔ Free ls ∧ Free ms :=
  List.forall_mem_append

theorem fits_sign {k : Kind} (spelled : k.spelling ≠ "") : (sign k).Fits previous := by
  have own := Kind.of_all (P := fun k => k.spelling ≠ "")
    (Q := fun k => !k.written.isSynthetic && k.written.spelling = k.spelling) (by decide)
    (decide_eq_true spelled)
  simp only [Bool.and_eq_true, Bool.not_eq_true', decide_eq_true_eq] at own
  rw [sign, ← own.2]
  exact .spelled own.1 (own.2.symm ▸ spelled)

@[simp] theorem free_enclose (bare : Bool) : Free (enclose bare ls) ↔ Free ls := by
  have opens previous : (sign .parOpen).Fits previous := fits_sign (by decide)
  have closes previous : (sign .parClose).Fits previous := fits_sign (by decide)
  cases bare <;> simp [enclose, opens, closes]

theorem Fits.written (fits : l.Fits previous) : Written l l.chars := by
  obtain ⟨kind, value⟩ := l
  unfold chars
  split
  · next text =>
    obtain rfl : kind = .strVal := text
    cases fits with
    | spelled own written => contradiction
    | @text value mark is apart =>
      split
      · next holds =>
        obtain rfl | rfl : mark = '"' ∨ mark = '\x27' := by simpa [marks] using is
        · contradiction
        · exact .quoted is apart
      · next lacks => exact .quoted (by simp [marks]) lacks
  · next bare => exact .plain bare

/-- Tokens that fit one after the other can be written with a space between two of them. -/
theorem WellFormed.renders (fit : WellFormed previous ls) : Scanner.Renders ls (spaced ls) := by
  induction ls generalizing previous with
  | nil => exact .nil
  | cons l ls ih =>
    cases ls with
    | nil => exact .single fit.1.written
    | cons m ls => exact .cons fit.1.written (by decide) .nil (ih fit.2)

theorem Free.wellFormed (free : Free ls) : WellFormed previous ls := by
  induction ls generalizing previous with
  | nil => trivial
  | cons l ls ih =>
    obtain ⟨first, others⟩ := free_cons.mp free
    exact ⟨first previous, ih others⟩

theorem Free.renders (free : Free ls) : Scanner.Renders ls (spaced ls) :=
  (@Free.wellFormed _ none free).renders

end Lexeme

namespace Expr

open Lexeme

variable {style : Style} {es : List Expr}

theorem free_otherLexemes (all : ∀ e ∈ es, Free (e.lexemes style)) :
    Free (otherLexemes style es) := by
  induction es with
  | nil => simp [otherLexemes]
  | cons e es ih =>
    obtain ⟨first, others⟩ := List.forall_mem_cons.mp all
    have comma previous : (sign .comma).Fits previous := fits_sign (by decide)
    simp [otherLexemes, comma, first, ih others]

theorem free_itemLexemes (all : ∀ e ∈ es, Free (e.lexemes style)) :
    Free (itemLexemes style es) := by
  cases es with
  | nil => simp [itemLexemes]
  | cons e es =>
    obtain ⟨first, others⟩ := List.forall_mem_cons.mp all
    simp [itemLexemes, first, free_otherLexemes others]

theorem free_lexemes (e : Expr) : Free (e.lexemes style) := by
  induction e using ofParts with
  | step e ih =>
    have signs : ∀ k ∈ [Kind.ternary, .colon, .round, .arrOpen, .arrClose, .period, .optChain,
        .parOpen, .parClose, .lArrOpen, .setOpen, .setClose], ∀ previous,
        (sign k).Fits previous := by
      intro k member previous
      apply fits_sign
      revert k
      decide
    simp only [List.forall_mem_cons, List.mem_singleton, forall_eq] at signs
    cases e with
    | atom a => simpa [lexemes] using a.fits
    | binary op joins left right =>
      have own previous : (sign op).Fits previous :=
        fits_sign (Kind.spelled_of_isBinaryOperator joins)
      simp_all [lexemes, parts]
    | unary fixity op known operand =>
      have own previous : (sign op).Fits previous := fits_sign (Fixity.spelled_of_mem known)
      cases fixity <;> simp_all [lexemes, parts]
    | ternary | index => simp_all [lexemes, parts]
    | rounded operand places =>
      have own := places.fits
      simp_all [lexemes, parts]
    | slice target start stop step => cases step <;> simp_all [lexemes, stepLexemes, parts]
    | get target property optional => cases optional <;> simp_all [lexemes, access, parts]
    | call target args =>
      have inner : Free (itemLexemes style args) :=
        free_itemLexemes fun e member => ih e (List.mem_cons_of_mem _ member)
      simp_all [lexemes, parts]
    | list linked items =>
      have inner : Free (itemLexemes style items) := free_itemLexemes ih
      cases linked <;> simp_all [lexemes, Grammar.listOpener]
    | set items =>
      have inner : Free (itemLexemes style items) := free_itemLexemes ih
      simp_all [lexemes]

theorem free_statement (e : Expr) : Free (e.lexemes style ++ [sign .eol]) := by
  have eol previous : (sign .eol).Fits previous := fits_sign (by decide)
  simpa [eol] using e.free_lexemes

end Expr
end ScriptSyntax
