import ScriptSyntax.Cursor.Basic
import ScriptSyntax.Grammar.Statement

/-! Parsing of source texts: a parse is run on a cursor. Calls of rules may nest up to a depth that
is given beforehand; a run that would go deeper has no result. Between two tokens that are taken at
most four calls nest, so a bound that grows with the rest of the source is never reached. -/
namespace ScriptSyntax
namespace Parse

/-- Runs an action, given how rules are run. -/
def act (rules : {y : Yield} → Rule y → Cursor → Option (Cursor.Outcome y.Value)) :
    (action : Action) → Cursor → Option (Cursor.Outcome action.Answer)
  | .current, c => some (.ok c.current.kind, c)
  | .peek depth, c => some ((c.peek depth).map (·.map Token.kind) id)
  | .shift, c => some c.shift
  | .add shape token, c => let (id, c) := c.add shape token; some (.ok id, c)
  | .inspect id, c =>
    let node := (c.arena.node? id).getD ⟨.noOp, none, none, false⟩
    some (.ok node.profile, c)
  | .settle id, c => let (top, c) := c.regroup id; some (.ok top, c.freeze top)
  | .freeze id, c => some (.ok (), c.freeze id)
  | .announce, c => some (.ok (), c.note (.statement c.current.text))
  | .call rule, c => rules rule c

/-- Runs a parse that was started at `start`. -/
def exec {α : Type} (rules : {y : Yield} → Rule y → Cursor → Option (Cursor.Outcome y.Value))
    (start : Point) : Parse α → Cursor → Option (Cursor.Outcome α)
  | done a, c => some (.ok a, c)
  | fail .here fault, c => some (.error (c.error (fault c.current.text)), c)
  | fail .start fault, c => some (.error (c.errorAt start (fault c.current.text)), c)
  | step action next, c =>
    match act rules action c with
    | some (.ok answer, c) => (next answer).exec rules start c
    | some (.error e, c) => some (.error e, c)
    | none => none

theorem exec_bind {α β : Type}
    (rules : {y : Yield} → Rule y → Cursor → Option (Cursor.Outcome y.Value)) (start : Point)
    (p : Parse α) (f : α → Parse β) (c : Cursor) :
    (p.bind f).exec rules start c = match p.exec rules start c with
      | some (.ok a, c) => (f a).exec rules start c
      | some (.error e, c) => some (.error e, c)
      | none => none := by
  induction p generalizing c with
  | done a => rfl
  | fail blame fault => cases blame <;> rfl
  | step action next ih =>
    simp only [bind, exec]
    cases h : act rules action c with
    | none => rfl
    | some r => obtain ⟨e | answer, c'⟩ := r <;> simp [ih]

theorem exec_perform
    {rules : {y : Yield} → Rule y → Cursor → Option (Cursor.Outcome y.Value)} {start : Point}
    (action : Action) {c : Cursor} : (perform action).exec rules start c = act rules action c := by
  simp only [perform, exec]
  rcases act rules action c with - | ⟨e | answer, c'⟩ <;> rfl

/-- A run that ends well is an action that succeeds, and then a run that ends well. -/
theorem exec_step_ok {α : Type}
    {rules : {y : Yield} → Rule y → Cursor → Option (Cursor.Outcome y.Value)} {start : Point}
    {action : Action} {next : action.Answer → Parse α} {c d : Cursor} {a : α} :
    (step action next).exec rules start c = some (.ok a, d) ↔
      ∃ answer c', act rules action c = some (.ok answer, c') ∧
        (next answer).exec rules start c' = some (.ok a, d) := by
  rw [exec]
  rcases act rules action c with - | ⟨e | answer, c'⟩ <;> simp [and_assoc]

theorem exec_bind_ok {α β : Type}
    {rules : {y : Yield} → Rule y → Cursor → Option (Cursor.Outcome y.Value)} {start : Point}
    {p : Parse α} {f : α → Parse β} {c d : Cursor} {b : β} :
    (p >>= f).exec rules start c = some (.ok b, d) ↔
      ∃ a c', p.exec rules start c = some (.ok a, c') ∧
        (f a).exec rules start c' = some (.ok b, d) := by
  change (p.bind f).exec rules start c = _ ↔ _
  rw [exec_bind]
  rcases p.exec rules start c with - | ⟨e | a, c'⟩ <;> simp [and_assoc]

theorem exec_current {α : Type}
    {rules : {y : Yield} → Rule y → Cursor → Option (Cursor.Outcome y.Value)} {start : Point}
    {c : Cursor} {k : Kind} {f : Kind → Parse α} (kind : c.current.kind = k) :
    (current >>= f).exec rules start c = (f k).exec rules start c := by
  subst kind
  rfl

theorem exec_expect {rules : {y : Yield} → Rule y → Cursor → Option (Cursor.Outcome y.Value)}
    {start : Point} {c : Cursor} {k : Kind} (kind : c.current.kind = k) :
    (expect k).exec rules start c = shift.exec rules start c := by
  rw [expect, isAt, LawfulMonad.bind_assoc, exec_current kind]
  simp

/-- What ends with the rules of one run ends the same way with those of another that go as far. -/
theorem exec_mono {α : Type}
    {rules rules' : {y : Yield} → Rule y → Cursor → Option (Cursor.Outcome y.Value)} {start : Point}
    {p : Parse α} {c : Cursor} {r : Cursor.Outcome α}
    (further : ∀ {y : Yield} (rule : Rule y) (c : Cursor) (r : Cursor.Outcome y.Value),
      rules rule c = some r → rules' rule c = some r)
    (h : p.exec rules start c = some r) : p.exec rules' start c = some r := by
  induction p generalizing c with
  | done a => exact h
  | fail blame fault => cases blame <;> exact h
  | step action next ih =>
    have acts : ∀ x, act rules action c = some x → act rules' action c = some x := by
      intro x hx
      cases action with
      | call rule => exact further rule c x hx
      | _ => exact hx
    simp only [exec] at h ⊢
    cases acted : act rules action c with
    | none => simp [acted] at h
    | some x =>
      rw [acts x acted]
      rw [acted] at h
      obtain ⟨e | answer, c'⟩ := x
      · exact h
      · exact ih answer h

end Parse

/-- Runs a rule with calls nested up to a depth. -/
def Rule.run : Nat → {y : Yield} → Rule y → Cursor → Option (Cursor.Outcome y.Value)
  | 0, _, _, _ => none
  | depth + 1, _, rule, c => rule.body.exec (Rule.run depth) c.point c

/-- A run that ends within a depth ends the same way within a greater one. -/
theorem Rule.run_succ {depth : Nat} {y : Yield} {rule : Rule y} {c : Cursor}
    {r : Cursor.Outcome y.Value} (h : rule.run depth c = some r) :
    rule.run (depth + 1) c = some r := by
  induction depth generalizing y c with
  | zero => simp [run] at h
  | succ depth ih => exact Parse.exec_mono (fun _ _ _ => ih) h

theorem Rule.run_of_le {depth depth' : Nat} (le : depth ≤ depth') {y : Yield} {rule : Rule y}
    {c : Cursor} {r : Cursor.Outcome y.Value} (h : rule.run depth c = some r) :
    rule.run depth' c = some r := by
  induction le with
  | refl => exact h
  | step _ ih => exact run_succ ih

/-- A parse that ends where calls nest up to a depth ends the same way up to a greater one. -/
theorem Parse.exec_of_le {α : Type} {depth depth' : Nat} (le : depth ≤ depth') {start : Point}
    {p : Parse α} {c : Cursor} {r : Cursor.Outcome α}
    (h : p.exec (Rule.run depth) start c = some r) : p.exec (Rule.run depth') start c = some r :=
  exec_mono (fun _ _ _ => Rule.run_of_le le) h

namespace Cursor

/-- More than the number of tokens still to come. -/
def remaining (c : Cursor) : Nat := c.scanner.rest.length + c.pending.length + 2

def depth (c : Cursor) : Nat := 4 * c.remaining

/-- Runs a parse at the current token. -/
def run {α : Type} (c : Cursor) (p : Parse α) : Outcome α :=
  (p.exec (Rule.run c.depth) c.point c).getD (.error (c.error (.unexpectedToken c.current.text)), c)

/-- Parses a whole program and makes its block the root. -/
def program (c : Cursor) : Except Error Unit × Cursor :=
  match c.run (Grammar.block [.eof]) with
  | (.ok block, c) => (.ok (), { c with arena := c.arena.setRoot block })
  | (.error e, c) => (.error e, c)

end Cursor

/-- The events of a parse, and its tree or its error. -/
def parseTraced (source : String) (file : Option String) : List Event × Except Error Arena :=
  match Cursor.start source file with
  | .error e => ([], .error e)
  | .ok c =>
    match c.program with
    | (.ok (), c) => ((Event.finished c.arena.size :: c.journal).reverse, .ok c.arena)
    | (.error e, c) => (c.journal.reverse, .error e)

/-- The tree of a program, rooted at its block. -/
def parse (source : String) (file : Option String) : Except Error Arena :=
  (parseTraced source file).2

/-- The events of a tokenization, and its error if it fails. -/
def tokenizeTraced (source : String) (file : Option String) : List Event × Option Error :=
  let (tokens, failure) := (Scanner.ofText source file).tokens
  (tokens.map fun t => .lexed t.text, failure)

end ScriptSyntax
