import ScriptSyntax.Proofs.Derivation.Nesting
import ScriptSyntax.Proofs.Reading.Carried

/-! What precedence asks of the operands of an operator. An operand that is an operator again binds
at least as tight as the operator over it on its left, and tighter on its right, unless it is a
rounding or parentheses keep the two apart. -/
namespace ScriptSyntax

/-- The tokens stand between a parenthesis and the one that closes it. -/
def Parenthesized (tokens inner : List Token) : Prop :=
  ∃ before opener closer after, tokens = before ++ opener :: inner ++ closer :: after ∧
    opener.kind = .parOpen ∧ closer.kind = .parClose ∧ Nested inner

variable {tokens us ts inner outside : List Token}

theorem Parenthesized.widen (pair : Parenthesized us inner) (within : us <:+: ts) :
    Parenthesized ts inner := by
  obtain ⟨before, opener, closer, after, rfl, opens, closes, nested⟩ := pair
  obtain ⟨front, back, rfl⟩ := within
  exact ⟨front ++ before, opener, closer, after ++ back, by simp, opens, closes, nested⟩

theorem Parenthesized.subset (pair : Parenthesized us inner) : inner ⊆ us := by
  obtain ⟨before, opener, closer, after, rfl, -⟩ := pair
  intro k member
  simp [member]

namespace Tree

/-- Whether the node is a binary or a ternary operator. -/
def isOperator (t : Tree) : Bool := t.shape.left?.isSome

def isRounding (t : Tree) : Bool := t.token.any (·.kind = .round)

def rank? (t : Tree) : Option Nat := t.token.bind (·.kind.precedence)

/-- Whether parentheses enclose all tokens of the tree and leave others out. -/
def Enclosed (tokens outside : List Token) (t : Tree) : Prop :=
  ∃ inner, Parenthesized tokens inner ∧ (∀ k ∈ t.reading, k.written ∈ inner) ∧
    ∀ k ∈ outside, k.written ∉ inner

/-- Whether ranks do not matter: the operand is no operator, or a rounding, or enclosed without the
tokens outside. -/
def Apart (tokens outside : List Token) (c : Tree) : Prop :=
  c.isOperator = true → c.isRounding = true ∨ c.Enclosed tokens outside

/-- Whether `c` may be an operand of `p`, on the side where ranks relate by `binds`. -/
def Fits (tokens : List Token) (binds : Nat → Nat → Prop) (p c : Tree) : Prop :=
  c.Apart tokens p.token.toList ∨
    ∃ tight loose, c.rank? = some tight ∧ p.rank? = some loose ∧ binds tight loose

/-- What precedence asks of a node. The middle and the last operand of a ternary operator are
expressions of their own. -/
structure Obeys (tokens : List Token) (p : Tree) : Prop where
  ranked : p.isOperator = true → ∃ rank, p.rank? = some rank
  left : ∀ c ∈ p.shape.left?, Fits tokens (· ≤ ·) p c
  right : ∀ l c, p.shape = .binaryOp l c → Fits tokens (· < ·) p c

variable {p c : Tree} {binds : Nat → Nat → Prop}

theorem apart_of_plain (plain : c.isOperator = false) : c.Apart tokens outside := by
  simp [Apart, plain]

/-- Among more tokens an operand is apart from more of them, if they do not stand in the phrase
that it comes from. -/
theorem Apart.widen {others : List Token} (apart : c.Apart us outside) (within : us <:+: ts)
    (out : ∀ k ∈ others, k ∈ outside ∨ k.written ∉ us) : c.Apart ts others := by
  intro operator
  rcases apart operator with round | ⟨inner, pair, inside, left⟩
  · exact .inl round
  · refine .inr ⟨inner, pair.widen within, inside, fun k member => ?_⟩
    rcases out k member with known | new
    · exact left k known
    · exact fun enclosed => new (pair.subset enclosed)

theorem Fits.widen (fits : Fits us binds p c) (within : us <:+: ts) : Fits ts binds p c :=
  fits.imp_left fun apart => apart.widen within fun _ member => .inl member

theorem Obeys.widen (obeys : p.Obeys us) (within : us <:+: ts) : p.Obeys ts :=
  ⟨obeys.ranked, fun c member => (obeys.left c member).widen within,
    fun l c same => (obeys.right l c same).widen within⟩

theorem obeys_of_plain (plain : p.isOperator = false) : p.Obeys tokens := by
  have none : p.shape.left? = none := by simpa [isOperator] using plain
  constructor
  · simp [plain]
  · simp [none]
  · intro l c same
    simp [same, Shape.left?] at none

theorem Obeys.freeze (obeys : p.Obeys tokens) : p.freeze.Obeys tokens := by
  cases p
  exact ⟨obeys.ranked, obeys.left, obeys.right⟩

end Tree
end ScriptSyntax
