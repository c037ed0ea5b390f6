import ScriptSyntax.Proofs.Program.Accepted

/-! The brackets of an accepted program. Taken out of its tokens they make a word in which brackets
open and close in pairs of one family, one pair inside or after another. -/
namespace ScriptSyntax

namespace Kind

def isBracket (k : Kind) : Bool := k.closer?.isSome || k.isCloser

/-- A bracket opens or closes, and what is no bracket changes nothing that is awaited. -/
theorem nest_cases {k : Kind} {awaited later : List Kind} (read : k.nest awaited = some later) :
    (k.isBracket = false ∧ later = awaited) ∨
      (∃ closer, k.closer? = some closer ∧ later = closer :: awaited) ∨
      (k.isCloser = true ∧ awaited = k :: later) := by
  unfold nest at read
  split at read <;> simp_all [closer?, isCloser, isBracket]

end Kind

/-- The brackets among the tokens, in their order. -/
def brackets (ts : List Token) : List Kind := (ts.map Token.kind).filter Kind.isBracket

theorem brackets_cons (t : Token) (ts : List Token) :
    brackets (t :: ts) = if t.kind.isBracket then t.kind :: brackets ts else brackets ts := by
  simp [brackets, List.filter_cons]

/-- Words in which every opener is closed by the closer of its family. Each pair encloses such a
word, and such a word follows it. -/
inductive Balanced : List Kind → Prop where
  | nil : Balanced []
  | pair {opener closer : Kind} {inner rest : List Kind} (closes : opener.closer? = some closer)
      (inside : Balanced inner) (behind : Balanced rest) :
      Balanced (opener :: inner ++ closer :: rest)

/-- Words that close the kinds awaited, and in between are balanced. -/
def Closes : List Kind → List Kind → Prop
  | [], word => Balanced word
  | closer :: awaited, word =>
    ∃ inner rest, word = inner ++ closer :: rest ∧ Balanced inner ∧ Closes awaited rest

namespace Closes

variable {opener closer : Kind} {awaited word : List Kind}

/-- An opener in front of a word that closes it. -/
theorem opened (closes : opener.closer? = some closer) (later : Closes (closer :: awaited) word) :
    Closes awaited (opener :: word) := by
  obtain ⟨inner, rest, rfl, inside, behind⟩ := later
  cases awaited with
  | nil => exact .pair closes inside behind
  | cons outer awaited =>
    obtain ⟨between, rest, rfl, middle, behind⟩ := behind
    exact ⟨opener :: inner ++ closer :: between, rest, by simp, .pair closes inside middle, behind⟩

theorem closed (later : Closes awaited word) : Closes (closer :: awaited) (closer :: word) :=
  ⟨[], word, rfl, .nil, later⟩

end Closes

theorem closes_of_nest {ts : List Token} {awaited : List Kind} (read : nest ts awaited = some []) :
    Closes awaited (brackets ts) := by
  induction ts generalizing awaited with
  | nil =>
    obtain rfl := Option.some.inj read
    exact .nil
  | cons t rest ih =>
    rw [nest_cons, Option.bind_eq_some_iff] at read
    obtain ⟨later, first, others⟩ := read
    rw [brackets_cons]
    rcases Kind.nest_cases first with ⟨plain, rfl⟩ | ⟨closer, opens, rfl⟩ | ⟨closes, rfl⟩
    · rw [plain]
      exact ih others
    · rw [if_pos (by simp [Kind.isBracket, opens])]
      exact (ih others).opened opens
    · rw [if_pos (by simp [Kind.isBracket, closes])]
      exact (ih others).closed

theorem Nested.balanced {ts : List Token} (nested : Nested ts) : Balanced (brackets ts) :=
  closes_of_nest (nested [])

theorem brackets_snoc {last : Token} (ts : List Token) (plain : last.kind.isBracket = false) :
    brackets (ts ++ [last]) = brackets ts := by
  simp [brackets, plain]

variable {source : String} {file : Option String} {a : Arena}

/-- The brackets of an accepted program are balanced. -/
theorem parse_balanced (accepted : parse source file = .ok a) :
    ∃ tokens, tokenize source file = .ok tokens ∧ Balanced (brackets tokens) := by
  obtain ⟨ts, last, b, t, program, -⟩ := parse_accepted accepted
  refine ⟨_, program.tokens, ?_⟩
  rw [brackets_snoc ts (by rw [program.eof]; rfl)]
  exact program.derives.nested.balanced

theorem parse_balanced_indexes : ∃ a, parse "x = f([(a)[0], -[b]], \x7b< c <\x7d);" none = .ok a ∧
    (a.root = some 12 ∧ a.shape? 12 = some (.block [11]) ∧ a.shape? 10 = some (.call 1 [7, 9]) ∧
      a.shape? 7 = some (.arrayList [4, 6]) ∧ a.shape? 6 = some (.linkedList [5])) ∧
    ∃ tokens, tokenize "x = f([(a)[0], -[b]], \x7b< c <\x7d);" none = .ok tokens ∧
      (brackets tokens).length = 12 ∧ Balanced (brackets tokens) := by
  have count : (tokenize "x = f([(a)[0], -[b]], \x7b< c <\x7d);" none).toOption.any
      (fun ts => (brackets ts).length = 12) = true := by decide +kernel
  refine exists_parse (by decide +kernel) fun a accepted => ?_
  obtain ⟨tokens, lexed, balanced⟩ := parse_balanced accepted
  obtain ⟨ts, same, twelve⟩ := exists_ok count
  cases lexed.symm.trans same
  exact ⟨tokens, lexed, twelve, balanced⟩

end ScriptSyntax
