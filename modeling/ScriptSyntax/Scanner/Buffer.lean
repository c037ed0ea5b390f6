import ScriptSyntax.Scanner.Basic

/-! The scanner over a source that gives one character at a time. Characters that were looked at
wait in a queue, and they are taken before any more is drawn from the source. -/
namespace ScriptSyntax

structure Buffer where
  file : String
  /-- The characters not drawn yet. -/
  source : List Char
  /-- The characters drawn but not taken, the next one first. -/
  queue : List Char
  /-- The most characters that the queue has held at any time. -/
  peak : Nat
  point : Point
  previous : Option Kind

namespace Buffer

def ofText (source : String) (file : Option String) : Buffer :=
  ⟨file.getD defaultFile, source.toList, [], 0, .start, none⟩

/-- The characters not taken yet. -/
def text (b : Buffer) : List Char := b.queue ++ b.source

def position (b : Buffer) : Position := ⟨b.point, b.file⟩

/-- Draws characters until so many wait in the queue or there are no more. -/
def fill (b : Buffer) (n : Nat) : Buffer :=
  let missing := n - b.queue.length
  let queue := b.queue ++ b.source.take missing
  { b with source := b.source.drop missing, queue, peak := max b.peak queue.length }

/-- The character `n` places ahead, 1 being the next one. It has to wait in the queue. -/
def ahead (b : Buffer) (n : Nat) : Option Char := b.queue[n - 1]?

/-- Takes the next character. -/
def advance (b : Buffer) : Option Char × Buffer :=
  match b.queue, b.source with
  | c :: queue, _ => (some c, { b with queue, point := b.point.after c })
  | [], c :: source => (some c, { b with source, point := b.point.after c })
  | [], [] => (none, b)

def advanceBy : Nat → Buffer → Buffer
  | 0, b => b
  | n + 1, b => advanceBy n b.advance.2

def isAtEnd (b : Buffer) : Bool × Buffer :=
  let b := b.fill 1
  ((b.ahead 1).isNone, b)

/-- A token from `start` up to here. -/
def emit (b : Buffer) (kind : Kind) (value : String) (start : Point) : Token × Buffer :=
  (⟨kind, value, ⟨start, b.point⟩⟩, { b with previous := some kind })

section Shortening

variable {b b' : Buffer} {n : Nat} {c : Char}

@[simp] theorem text_fill (b : Buffer) (n : Nat) : (b.fill n).text = b.text := by
  simp [text, fill]

theorem advance_of_text_nil (empty : b.text = []) : b.advance = (none, b) := by
  obtain ⟨file, source, queue, peak, point, previous⟩ := b
  simp only [text, List.append_eq_nil_iff] at empty
  obtain ⟨rfl, rfl⟩ := empty
  rfl

theorem advance_of_text_cons {cs : List Char} (split : b.text = c :: cs) :
    ∃ b', b.advance = (some c, b') ∧ b'.text = cs := by
  obtain ⟨file, source, queue, peak, point, previous⟩ := b
  cases queue with
  | nil =>
    obtain rfl : source = c :: cs := split
    exact ⟨_, rfl, rfl⟩
  | cons d queue =>
    obtain ⟨rfl, rfl⟩ := List.cons.inj split
    exact ⟨_, rfl, rfl⟩

theorem length_advance (b : Buffer) : b.advance.2.text.length = b.text.length - 1 := by
  cases split : b.text with
  | nil => rw [advance_of_text_nil split, split]; rfl
  | cons c cs =>
    obtain ⟨b', taken, rfl⟩ := advance_of_text_cons split
    rw [taken]
    rfl

theorem pos_of_advance (taken : b.advance = (some c, b')) : 0 < b.text.length := by
  refine List.length_pos_iff.mpr fun empty => ?_
  simp [advance_of_text_nil empty] at taken

theorem pos_of_ahead (some : b.ahead n = some c) : 0 < b.text.length := by
  refine List.length_pos_iff.mpr fun empty => ?_
  simp [ahead, (List.append_eq_nil_iff.mp empty).1] at some

theorem advance_shortens (taken : b.advance = (some c, b')) : b'.text.length < b.text.length := by
  have pos := pos_of_advance taken
  have shorter := length_advance b
  simp only [taken] at shorter
  omega

end Shortening

/-- Takes characters through the next line feed. -/
def skipLine (b : Buffer) : Buffer :=
  match _taken : b.advance with
  | (some c, b') => if c = '\n' then b' else b'.skipLine
  | (none, b') => b'
termination_by b.text.length
decreasing_by exact advance_shortens ‹_›

/-- Takes characters through the next closing mark of a comment, and tells whether there was one. -/
def skipBlock (b : Buffer) : Bool × Buffer :=
  match _taken : b.advance with
  | (some c, b') =>
    if c = '*' then
      let b' := b'.fill 1
      if b'.ahead 1 = some '/' then (true, b'.advance.2) else b'.skipBlock
    else b'.skipBlock
  | (none, b') => (false, b')
termination_by b.text.length
decreasing_by
  · rw [text_fill]
    exact advance_shortens ‹_›
  · exact advance_shortens ‹_›

theorem length_skipLine (b : Buffer) : b.skipLine.text.length ≤ b.text.length - 1 := by
  fun_induction skipLine b with
  | case1 b b' taken =>
    have shorter := advance_shortens taken
    omega
  | case2 b c b' taken other ih =>
    have shorter := advance_shortens taken
    omega
  | case3 b b' taken =>
    simp [← length_advance, taken]

theorem length_skipBlock (b : Buffer) : b.skipBlock.2.text.length ≤ b.text.length := by
  fun_induction skipBlock b with
  | case1 b b₁ b₂ closes taken =>
    have shorter := advance_shortens taken
    simp only [length_advance, b₂, text_fill]
    omega
  | case2 b b₁ b₂ opened taken ih =>
    have shorter := advance_shortens taken
    simp only [b₂, text_fill] at ih ⊢
    omega
  | case3 b c b₁ taken other ih =>
    have shorter := advance_shortens taken
    omega
  | case4 b b₁ taken =>
    have same := length_advance b
    simp only [taken] at same ⊢
    omega

theorem length_advanceBy (n : Nat) (b : Buffer) :
    (b.advanceBy n).text.length = b.text.length - n := by
  induction n generalizing b with
  | zero => rfl
  | succ n ih =>
    rw [advanceBy, ih, length_advance]
    omega

/-- Skips blanks and comments. Gives the place of a comment that is never closed. -/
def skipGap (b : Buffer) : Option Point × Buffer :=
  let b₁ := b.fill 1
  match _next : b₁.ahead 1 with
  | none => (none, b₁)
  | some c =>
    if Text.isBlank c then b₁.advance.2.skipGap
    else if c = '/' then
      let b₂ := b₁.fill 2
      if b₂.ahead 2 = some '/' then b₂.skipLine.skipGap
      else if b₂.ahead 2 = some '*' then
        match _closed : (b₂.advanceBy 2).skipBlock with
        | (true, b₃) => b₃.skipGap
        | (false, b₃) => (some b.point, b₃)
      else (none, b₂)
    else (none, b₁)
termination_by b.text.length
decreasing_by
  all_goals have pos := pos_of_ahead ‹(b.fill 1).ahead 1 = some _›
  · simp only [length_advance, text_fill] at pos ⊢
    omega
  · have shorter := b₂.length_skipLine
    simp only [b₂, b₁, text_fill] at pos shorter ⊢
    omega
  · have shorter := (b₂.advanceBy 2).length_skipBlock
    simp only [_closed, b₂, b₁, length_advanceBy, text_fill] at pos shorter
    omega

/-- Takes characters up to the next `mark`, which is taken as well. -/
def takeString (mark : Char) (value : List Char) (b : Buffer) : Option (List Char) × Buffer :=
  match _taken : b.advance with
  | (some c, b') => if c = mark then (some value, b') else b'.takeString mark (value ++ [c])
  | (none, b') => (none, b')
termination_by b.text.length
decreasing_by exact advance_shortens ‹_›

/-- Takes digits, and a point right before a digit where there was none before. Tells whether there
was a point. -/
def takeNumber (real : Bool) (value : List Char) (b : Buffer) : (Bool × List Char) × Buffer :=
  let b' := b.fill 1
  match _next : b'.ahead 1 with
  | none => ((real, value), b')
  | some c =>
    if c.isDigit then b'.advance.2.takeNumber real (value ++ [c])
    else if c = '.' && !real then
      let b' := b'.fill 2
      if (b'.ahead 2).any Char.isDigit then b'.advance.2.takeNumber true (value ++ ['.'])
      else ((real, value), b')
    else ((real, value), b')
termination_by b.text.length
decreasing_by
  all_goals
    have pos := pos_of_ahead ‹(b.fill 1).ahead 1 = some _›
    simp only [length_advance, text_fill] at pos ⊢
    omega

/-- Takes the characters of a word while the trie of the reserved words is walked along. -/
def takeWord (value : List Char) (node : Option (Trie Kind)) (b : Buffer) :
    (List Char × Option (Trie Kind)) × Buffer :=
  let b' := b.fill 1
  match _next : b'.ahead 1 with
  | none => ((value, node), b')
  | some c =>
    if Scanner.continuesWord c then
      b'.advance.2.takeWord (value ++ [c]) (node.bind (·.step c))
    else ((value, node), b')
termination_by b.text.length
decreasing_by
  all_goals
    have pos := pos_of_ahead ‹(b.fill 1).ahead 1 = some _›
    simp only [length_advance, text_fill] at pos ⊢
    omega

/-- Whether the text goes on like this, `n` characters ahead. -/
def goesOn : List Char → Nat → Buffer → Bool × Buffer
  | [], _, b => (true, b)
  | c :: cs, n, b =>
    let b := b.fill n
    if b.ahead n = some c then goesOn cs (n + 1) b else (false, b)

/-- The first of the symbols that the text goes on like. -/
def choose : List (String × Kind) → Buffer → Option Kind × Buffer
  | [], b => (none, b)
  | (suffix, kind) :: others, b =>
    match goesOn suffix.toList 2 b with
    | (true, b) => (some kind, b)
    | (false, b) => choose others b

/-- The symbol that begins with `c`. After `*-` everything is looked at that a symbol can hold. -/
def symbol? (c : Char) (b : Buffer) : Option Kind × Buffer :=
  let b := b.fill 2
  let b := if c = '*' ∧ b.ahead 2 = some '-' then b.fill 4 else b
  choose (Scanner.branches c) b

def startsNumber (c : Char) (b : Buffer) : Bool × Buffer :=
  let b := b.fill 2
  let digit := (b.ahead 2).any Char.isDigit
  (c.isDigit || digit && (c = '.' || c = '-' && !b.previous.any Scanner.endsOperand), b)

def string (mark : Char) (start : Point) (b : Buffer) : Except Error Token × Buffer :=
  match b.advance.2.takeString mark [] with
  | (some value, b) => let (t, b) := b.emit .strVal (String.ofList value) start; (.ok t, b)
  | (none, b) => (.error ⟨.unterminatedString mark, start, b.file⟩, b)

def number (start : Point) (b : Buffer) : Token × Buffer :=
  let b := b.fill 1
  let ((real, value), b) :=
    if b.ahead 1 = some '-' then b.advance.2.takeNumber false ['-'] else b.takeNumber false []
  b.emit (if real then .realVal else .intVal) (String.ofList value) start

def word (start : Point) (b : Buffer) : Token × Buffer :=
  let ((value, node), b) := b.takeWord [] (some Kind.reserved)
  match node.bind Trie.value with
  | some kind => b.emit kind kind.spelling start
  | none => b.emit .var (String.ofList value) start

def symbol (c : Char) (start : Point) (b : Buffer) : Except Error Token × Buffer :=
  match b.symbol? c with
  | (some kind, b) =>
    let (t, b) := (b.advanceBy kind.spelling.length).emit kind kind.spelling start
    (.ok t, b)
  | (none, b) => (.error ⟨.unrecognisedCharacter c, start, b.file⟩, b)

/-- The token that begins with the next character. -/
def token (b : Buffer) : Except Error Token × Buffer :=
  let start := b.point
  let b := b.fill 1
  match b.ahead 1 with
  | none => let (t, b) := b.emit .eof "" start; (.ok t, b)
  | some c =>
    if c = '"' ∨ c = '\x27' then b.string c start
    else
      let (starts, b) := b.startsNumber c
      if starts then let (t, b) := b.number start; (.ok t, b)
      else if Scanner.startsWord c then let (t, b) := b.word start; (.ok t, b)
      else b.symbol c start

/-- The next token. -/
def next (b : Buffer) : Except Error Token × Buffer :=
  match b.skipGap with
  | (some opened, b) => (.error ⟨.unterminatedComment, opened, b.file⟩, b)
  | (none, b) => b.token

end Buffer
end ScriptSyntax
