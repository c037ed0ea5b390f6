import ScriptSyntax.Proofs.Scan.Lexing
import ScriptSyntax.Scanner.Buffer

/-! Reading through a queue gives what reading off the whole text gives, and the queue stays short.
What was looked at ahead, and how often, changes nothing. -/
namespace ScriptSyntax

/-- What a scanner makes of what was read at its place. -/
def Scanner.made (s : Scanner) (reading : Reading) : Except Error Token × Scanner :=
  let stop := s.point.advance reading.written
  match reading.outcome with
  | .ok (kind, value) =>
    (.ok ⟨kind, value, s.point, stop⟩, ⟨s.file, reading.rest, stop, some kind⟩)
  | .error fault => (.error ⟨fault, s.point, s.file⟩, ⟨s.file, reading.rest, stop, s.previous⟩)

@[simp] theorem Scanner.rest_made (s : Scanner) (reading : Reading) :
    (s.made reading).2.rest = reading.rest := by
  rw [made]
  split <;> rfl

@[simp] theorem Scanner.point_made (s : Scanner) (reading : Reading) :
    (s.made reading).2.point = s.point.advance reading.written := by
  rw [made]
  split <;> rfl

@[simp] theorem Scanner.file_made (s : Scanner) (reading : Reading) :
    (s.made reading).2.file = s.file := by
  rw [made]
  split <;> rfl

/-- Behind a gap a token is read. -/
theorem Scanner.next_eq_made {s : Scanner} {p : Point} {cs : List Char}
    (gap : skipGap .outside s.point s.rest = ⟨p, cs, none⟩) :
    s.next = made ⟨s.file, cs, p, s.previous⟩ (read s.previous cs) := by
  rcases outcome : (read s.previous cs).outcome with fault | ⟨kind, value⟩ <;>
    simp [next, gap, made, outcome]

/-- A string that is left open takes the rest of the text. -/
theorem Scanner.read_openString {previous : Option Kind} {mark : Char} {cs : List Char}
    (is : mark ∈ Lexeme.marks) (apart : mark ∉ cs) :
    read previous (mark :: cs) = .stuck (.unterminatedString mark) (mark :: cs) [] := by
  have other : ∀ d ∈ cs, (d != mark) = true := fun d member => by
    simpa using fun same : d = mark => apart (same ▸ member)
  rw [read, if_pos (by simpa [Lexeme.marks] using is), readString,
    List.takeWhile_eq_self_iff.mpr other, List.dropWhile_eq_nil_iff.mpr other]

namespace Buffer

variable {b b' b'' : Buffer} {cs ds : List Char} {c d : Char} {n : Nat}

@[simp] theorem point_fill (b : Buffer) (n : Nat) : (b.fill n).point = b.point := rfl

/-- What is left of the text, without regard to how much of it waits in the queue. -/
def scanner (b : Buffer) : Scanner := ⟨b.file, b.text, b.point, b.previous⟩

/-- The queue holds no more than may be looked at ahead, and never did. -/
def Short (b : Buffer) : Prop := b.queue.length ≤ b.peak ∧ b.peak ≤ maxLookahead

/-- The characters were taken between the two states, and no token was finished. -/
structure Takes (b : Buffer) (cs : List Char) (b' : Buffer) : Prop where
  text : b.text = cs ++ b'.text
  point : b'.point = b.point.advance cs
  file : b'.file = b.file
  previous : b'.previous = b.previous
  short : b.Short → b'.Short

theorem Takes.refl (b : Buffer) : b.Takes [] b := ⟨rfl, rfl, rfl, rfl, id⟩

theorem Takes.trans (first : b.Takes cs b') (second : b'.Takes ds b'') :
    b.Takes (cs ++ ds) b'' where
  text := by rw [first.text, second.text, List.append_assoc]
  point := by rw [second.point, first.point, Point.advance_append]
  file := second.file.trans first.file
  previous := second.previous.trans first.previous
  short := second.short ∘ first.short

theorem Takes.fill (b : Buffer) (within : n ≤ maxLookahead) : b.Takes [] (b.fill n) where
  text := (b.text_fill n).symm
  point := rfl
  file := rfl
  previous := rfl
  short := by
    rintro ⟨held, few⟩
    simp only [Short, Buffer.fill, List.length_append, List.length_take]
    omega

/-- What is found so far ahead is what stands there in the text. -/
theorem ahead_fill (b : Buffer) (pos : 0 < n) : (b.fill n).ahead n = b.text[n - 1]? := by
  simp only [Buffer.ahead, Buffer.fill, Buffer.text]
  rcases Nat.lt_or_ge (n - 1) b.queue.length with held | past
  · rw [List.getElem?_append_left held, List.getElem?_append_left held]
  · rw [List.getElem?_append_right past, List.getElem?_append_right past,
      List.getElem?_take_of_lt (by omega)]

theorem Takes.advance (taken : b.advance = (some c, b')) : b.Takes [c] b' := by
  obtain ⟨file, source, queue, peak, point, previous⟩ := b
  cases queue with
  | nil =>
    cases source with
    | nil => cases taken
    | cons d source =>
      cases taken
      exact ⟨rfl, rfl, rfl, rfl, id⟩
  | cons d queue =>
    cases taken
    refine ⟨rfl, rfl, rfl, rfl, ?_⟩
    rintro ⟨held, few⟩
    exact ⟨Nat.le_of_succ_le held, few⟩

theorem advance_none (taken : b.advance = (none, b')) : b' = b ∧ b.text = [] := by
  cases split : b.text with
  | nil =>
    cases taken.symm.trans (advance_of_text_nil split)
    exact ⟨rfl, rfl⟩
  | cons c cs =>
    obtain ⟨_, again, -⟩ := advance_of_text_cons split
    cases taken.symm.trans again

/-- A character that is there can be taken. -/
theorem Takes.advance_of_text (split : b.text = c :: cs) :
    b.Takes [c] b.advance.2 ∧ b.advance.2.text = cs := by
  obtain ⟨b', taken, after⟩ := advance_of_text_cons split
  rw [taken]
  exact ⟨.advance taken, after⟩

theorem Takes.advanceBy (n : Nat) (b : Buffer) : b.Takes (b.text.take n) (b.advanceBy n) := by
  induction n generalizing b with
  | zero => exact .refl b
  | succ n ih =>
    cases split : b.text with
    | nil =>
      have stays := ih b
      rw [split, List.take_nil] at stays
      rw [Buffer.advanceBy, advance_of_text_nil split, List.take_nil]
      exact stays
    | cons c cs =>
      obtain ⟨first, rest⟩ := Takes.advance_of_text split
      have more := first.trans (ih b.advance.2)
      rwa [rest] at more

/-- The next character, once it was looked at. -/
theorem text_of_ahead (next : (b.fill 1).ahead 1 = some c) : ∃ cs, b.text = c :: cs := by
  rw [ahead_fill b Nat.one_pos] at next
  cases split : b.text <;> simp_all

theorem text_of_ahead_none (next : (b.fill 1).ahead 1 = none) : b.text = [] := by
  rw [ahead_fill b Nat.one_pos] at next
  cases split : b.text <;> simp_all

theorem Takes.fill_one (b : Buffer) : b.Takes [] (b.fill 1) := .fill b (by decide)

theorem Takes.fill_two (b : Buffer) : b.Takes [] ((b.fill 1).fill 2) :=
  (Takes.fill_one b).trans (.fill _ (by decide))

theorem ahead_fill_two (split : b.text = c :: cs) : ((b.fill 1).fill 2).ahead 2 = cs.head? := by
  rw [ahead_fill _ Nat.two_pos, text_fill, split]
  cases cs <;> rfl

section Gap

theorem skipLine_takes (b : Buffer) : (∃ cs, b.Takes cs b.skipLine) ∧
    Scanner.skipGap .line b.point b.text =
      Scanner.skipGap .outside b.skipLine.point b.skipLine.text := by
  fun_induction skipLine b with
  | case1 b b' taken =>
    have takes := Takes.advance taken
    refine ⟨⟨_, takes⟩, ?_⟩
    rw [takes.text, takes.point, List.singleton_append, Scanner.skipGap, if_pos rfl]
    rfl
  | case2 b c b' taken other ih =>
    have takes := Takes.advance taken
    obtain ⟨⟨cs, more⟩, same⟩ := ih
    refine ⟨⟨_, takes.trans more⟩, ?_⟩
    rw [← same, takes.text, takes.point, List.singleton_append, Scanner.skipGap, if_neg other]
    rfl
  | case3 b b' taken =>
    obtain ⟨rfl, empty⟩ := advance_none taken
    rw [empty]
    exact ⟨⟨_, .refl b'⟩, rfl⟩

theorem skipBlock_takes (b : Buffer) (opened : Point) : (∃ cs, b.Takes cs b.skipBlock.2) ∧
    Scanner.skipGap (.block opened) b.point b.text =
      if b.skipBlock.1 then Scanner.skipGap .outside b.skipBlock.2.point b.skipBlock.2.text
      else ⟨b.skipBlock.2.point, b.skipBlock.2.text, some opened⟩ := by
  fun_induction skipBlock b with
  | case1 b b₁ b₂ closes taken =>
    have takes := (Takes.advance taken).trans (.fill b₁ (by decide : 1 ≤ maxLookahead))
    rw [ahead_fill b₁ Nat.one_pos] at closes
    obtain ⟨rest, split⟩ : ∃ rest, b₁.text = '/' :: rest := by
      cases text : b₁.text <;> simp_all
    obtain ⟨last, after⟩ := Takes.advance_of_text ((b₁.text_fill 1).trans split)
    refine ⟨⟨_, takes.trans last⟩, ?_⟩
    rw [takes.text, text_fill, split, if_pos rfl, last.point, takes.point, after]
    simp [Scanner.skipGap]
  | case2 b b₁ b₂ opened taken ih =>
    have takes := (Takes.advance taken).trans (.fill b₁ (by decide : 1 ≤ maxLookahead))
    obtain ⟨⟨cs, more⟩, same⟩ := ih
    rw [ahead_fill b₁ Nat.one_pos] at opened
    refine ⟨⟨_, takes.trans more⟩, ?_⟩
    rw [← same, text_fill, (Takes.advance taken).text, takes.point, List.singleton_append,
      Scanner.skipGap]
    · rfl
    · rintro rest - split
      simp [split] at opened
  | case3 b c b₁ taken other ih =>
    have takes := Takes.advance taken
    obtain ⟨⟨cs, more⟩, same⟩ := ih
    refine ⟨⟨_, takes.trans more⟩, ?_⟩
    rw [← same, takes.text, takes.point, List.singleton_append, Scanner.skipGap]
    · rfl
    · simp [other]
  | case4 b b₁ taken =>
    obtain ⟨rfl, empty⟩ := advance_none taken
    refine ⟨⟨_, .refl b₁⟩, ?_⟩
    simp [empty, Scanner.skipGap]

/-- The opening mark of a comment is taken before the comment is skipped. -/
theorem skipGap_block (next : (b.fill 1).ahead 1 = some '/')
    (second : ((b.fill 1).fill 2).ahead 2 = some '*') :
    let inside := ((b.fill 1).fill 2).advanceBy 2
    (∃ cs, b.Takes cs inside.skipBlock.2) ∧ Scanner.skipGap .outside b.point b.text =
      if inside.skipBlock.1 then
        Scanner.skipGap .outside inside.skipBlock.2.point inside.skipBlock.2.text
      else ⟨inside.skipBlock.2.point, inside.skipBlock.2.text, some b.point⟩ := by
  intro inside
  obtain ⟨cs, split⟩ := text_of_ahead next
  rw [ahead_fill_two split] at second
  obtain ⟨rest, rfl⟩ : ∃ rest, cs = '*' :: rest := by
    cases cs <;> simp_all
  have opens := (Takes.fill_two b).trans (.advanceBy 2 _)
  obtain ⟨⟨ds, block⟩, same⟩ := inside.skipBlock_takes b.point
  refine ⟨⟨_, opens.trans block⟩, ?_⟩
  have text := opens.text
  have point := opens.point
  simp only [text_fill, split, List.nil_append, List.take_succ_cons, List.take_zero,
    List.cons_append, List.cons.injEq, true_and] at text point
  rw [← same, split, text, Scanner.skipGap]
  exact congrArg (Scanner.skipGap (.block b.point) · _) point.symm

theorem skipGap_takes (b : Buffer) : (∃ cs, b.Takes cs b.skipGap.2) ∧
    Scanner.skipGap .outside b.point b.text =
      ⟨b.skipGap.2.point, b.skipGap.2.text, b.skipGap.1⟩ := by
  fun_induction skipGap b with
  | case1 b b₁ next =>
    refine ⟨⟨_, .fill_one b⟩, ?_⟩
    simp only [b₁, text_fill, text_of_ahead_none next]
    rfl
  | case2 b b₁ c next blank ih =>
    obtain ⟨cs, split⟩ := text_of_ahead next
    obtain ⟨first, rest⟩ := Takes.advance_of_text ((b.text_fill 1).trans split)
    obtain ⟨⟨ds, more⟩, same⟩ := ih
    refine ⟨⟨_, ((Takes.fill_one b).trans first).trans more⟩, ?_⟩
    rw [← same, rest, first.point, split, Scanner.skipGap_blank blank]
    rfl
  | case3 b b₁ b₂ second next inked ih =>
    obtain ⟨cs, split⟩ := text_of_ahead next
    rw [ahead_fill_two split] at second
    obtain ⟨⟨ds, more⟩, same⟩ := ih
    obtain ⟨⟨es, line⟩, same'⟩ := b₂.skipLine_takes
    refine ⟨⟨_, ((Takes.fill_two b).trans line).trans more⟩, ?_⟩
    have text : b₂.text = b.text := by simp [b₂, b₁]
    have point : b₂.point = b.point := rfl
    rw [← same, ← same', text, point, split]
    cases cs with
    | nil => contradiction
    | cons d cs =>
      cases second
      simp [Scanner.skipGap]
  | case4 b b₁ b₂ _ second b₃ closed next inked ih =>
    obtain ⟨⟨cs, block⟩, same⟩ := skipGap_block next second
    obtain ⟨⟨ds, more⟩, same'⟩ := ih
    simp only [b₂, b₁] at closed
    simp only [closed, if_true] at block same
    exact ⟨⟨_, block.trans more⟩, same.trans same'⟩
  | case5 b b₁ b₂ _ second b₃ opened next inked =>
    obtain ⟨⟨cs, block⟩, same⟩ := skipGap_block next second
    simp only [b₂, b₁] at opened
    simp only [opened, Bool.false_eq_true, if_false] at block same
    exact ⟨⟨_, block⟩, same⟩
  | case6 b b₁ b₂ noLine noBlock next inked =>
    obtain ⟨cs, split⟩ := text_of_ahead next
    rw [ahead_fill_two split] at noLine noBlock
    refine ⟨⟨_, .fill_two b⟩, ?_⟩
    have ink : Scanner.Inked b.text := by
      rw [split]
      refine ⟨?_, ?_, by simpa using inked⟩ <;>
      · rintro ⟨more, same⟩
        cases same
        contradiction
    simpa [b₂, b₁] using ink.skipGap b.point
  | case7 b b₁ c next inked other =>
    obtain ⟨cs, split⟩ := text_of_ahead next
    refine ⟨⟨_, .fill_one b⟩, ?_⟩
    have ink : Scanner.Inked b.text := by
      rw [split]
      exact .of_head (by simpa using inked) other
    simpa [b₁] using ink.skipGap b.point

end Gap

section Loops

variable {mark : Char} {value : List Char} {real : Bool} {node : Option (Trie Kind)}

theorem takeString_takes (mark : Char) (value : List Char) (b : Buffer) :
    (∃ body, mark ∉ body ∧ (b.takeString mark value).1 = some (value ++ body) ∧
        b.Takes (body ++ [mark]) (b.takeString mark value).2) ∨
      mark ∉ b.text ∧ (b.takeString mark value).1 = none ∧
        b.Takes b.text (b.takeString mark value).2 := by
  fun_induction takeString mark value b with
  | case1 value b b' taken =>
    exact .inl ⟨[], List.not_mem_nil, by simp, .advance taken⟩
  | case2 value b c b' taken other ih =>
    have first := Takes.advance taken
    rcases ih with ⟨body, apart, found, more⟩ | ⟨apart, none, more⟩
    · refine .inl ⟨c :: body, ?_, by simpa using found, first.trans more⟩
      exact List.not_mem_cons_of_ne_of_not_mem (Ne.symm other) apart
    · refine .inr ⟨?_, none, ?_⟩
      · rw [first.text]
        exact List.not_mem_cons_of_ne_of_not_mem (Ne.symm other) apart
      · rw [first.text]
        exact first.trans more
  | case3 value b b' taken =>
    obtain ⟨rfl, empty⟩ := advance_none taken
    rw [empty]
    exact .inr ⟨List.not_mem_nil, rfl, .refl b'⟩

/-- The digits that come next, and where none came before them a fraction. -/
def numeral (real : Bool) (cs : List Char) : Bool × List Char :=
  if real then (true, cs.takeWhile Char.isDigit)
  else match Scanner.readFraction (cs.dropWhile Char.isDigit) with
    | some (fraction, _) => (true, cs.takeWhile Char.isDigit ++ fraction)
    | none => (false, cs.takeWhile Char.isDigit)

theorem numeral_nil (real : Bool) : numeral real [] = (real, []) := by
  cases real <;> rfl

theorem numeral_digit (digit : c.isDigit = true) (real : Bool) (cs : List Char) :
    numeral real (c :: cs) = ((numeral real cs).1, c :: (numeral real cs).2) := by
  cases real with
  | true => simp [numeral, digit]
  | false =>
    simp only [numeral, List.takeWhile_cons, List.dropWhile_cons, digit, if_true,
      Bool.false_eq_true, if_false]
    split <;> rfl

theorem numeral_point (follows : cs.head?.any Char.isDigit = true) :
    numeral false ('.' :: cs) = (true, '.' :: cs.takeWhile Char.isDigit) := by
  have sign : Char.isDigit '.' = false := by decide
  simp [numeral, sign, Scanner.readFraction, follows]

theorem numeral_other (other : c.isDigit = false)
    (stop : c = '.' → real = false → cs.head?.any Char.isDigit = false) :
    numeral real (c :: cs) = (real, []) := by
  cases real with
  | true => simp [numeral, other]
  | false =>
    simp only [numeral, List.takeWhile_cons, List.dropWhile_cons, other, Bool.false_eq_true,
      if_false]
    by_cases point : c = '.'
    · subst point
      simp [Scanner.readFraction, stop rfl rfl]
    · have none : Scanner.readFraction (c :: cs) = none := by
        unfold Scanner.readFraction
        split
        · next same =>
          cases same
          exact absurd rfl point
        · rfl
      rw [none]

theorem takeNumber_takes (real : Bool) (value : List Char) (b : Buffer) :
    (b.takeNumber real value).1 =
        ((numeral real b.text).1, value ++ (numeral real b.text).2) ∧
      b.Takes (numeral real b.text).2 (b.takeNumber real value).2 := by
  fun_induction takeNumber real value b with
  | case1 real value b b' next =>
    rw [text_of_ahead_none next, numeral_nil]
    exact ⟨by simp, .fill_one b⟩
  | case2 real value b b' c next digit ih =>
    obtain ⟨cs, split⟩ := text_of_ahead next
    obtain ⟨first, rest⟩ := Takes.advance_of_text ((b.text_fill 1).trans split)
    rw [rest] at ih
    rw [split, numeral_digit digit]
    exact ⟨by simpa using ih.1, ((Takes.fill_one b).trans first).trans ih.2⟩
  | case3 real value b b₁ c next other point b₂ follows ih =>
    obtain ⟨cs, split⟩ := text_of_ahead next
    simp only [Bool.and_eq_true, decide_eq_true_eq, Bool.not_eq_true'] at point
    obtain ⟨rfl, rfl⟩ := point
    rw [ahead_fill_two split] at follows
    obtain ⟨first, rest⟩ := Takes.advance_of_text
      (((b.fill 1).text_fill 2).trans ((b.text_fill 1).trans split))
    rw [rest] at ih
    rw [split, numeral_point follows]
    refine ⟨by simpa [numeral] using ih.1, ?_⟩
    simpa [numeral] using ((Takes.fill_two b).trans first).trans ih.2
  | case4 real value b b₁ c next other point b₂ stop =>
    obtain ⟨cs, split⟩ := text_of_ahead next
    rw [ahead_fill_two split, Bool.not_eq_true] at stop
    rw [split, numeral_other (by simpa using other) fun _ _ => stop]
    exact ⟨by simp, .fill_two b⟩
  | case5 real value b b' c next other point =>
    obtain ⟨cs, split⟩ := text_of_ahead next
    rw [split,
      numeral_other (by simpa using other) fun same whole => by simp [same, whole] at point]
    exact ⟨by simp, .fill_one b⟩

theorem takeWord_takes (value : List Char) (node : Option (Trie Kind)) (b : Buffer) :
    (b.takeWord value node).1 = (value ++ b.text.takeWhile Scanner.continuesWord,
        node.bind (·.walk (b.text.takeWhile Scanner.continuesWord))) ∧
      b.Takes (b.text.takeWhile Scanner.continuesWord) (b.takeWord value node).2 := by
  fun_induction takeWord value node b with
  | case1 value node b b' next =>
    rw [text_of_ahead_none next]
    exact ⟨by cases node <;> simp [Trie.walk], .fill_one b⟩
  | case2 value node b b' c next continues ih =>
    obtain ⟨cs, split⟩ := text_of_ahead next
    obtain ⟨first, rest⟩ := Takes.advance_of_text ((b.text_fill 1).trans split)
    rw [rest] at ih
    rw [split, List.takeWhile_cons_of_pos continues]
    refine ⟨ih.1.trans ?_, ((Takes.fill_one b).trans first).trans ih.2⟩
    cases node <;> simp [Trie.walk]
  | case3 value node b b' c next other =>
    obtain ⟨cs, split⟩ := text_of_ahead next
    rw [split, List.takeWhile_cons_of_neg other]
    exact ⟨by cases node <;> simp [Trie.walk], .fill_one b⟩

theorem goesOn_takes (cs : List Char) (n : Nat) (b : Buffer) (pos : 0 < n)
    (within : n + cs.length ≤ maxLookahead + 1) :
    (goesOn cs n b).1 = cs.isPrefixOf (b.text.drop (n - 1)) ∧ b.Takes [] (goesOn cs n b).2 := by
  induction cs generalizing n b with
  | nil => exact ⟨by simp [goesOn], .refl b⟩
  | cons c cs ih =>
    simp only [List.length_cons] at within
    have fills := Takes.fill b (show n ≤ maxLookahead by omega)
    have later : b.text.drop n = (b.text.drop (n - 1)).tail := by
      rw [List.tail_drop, Nat.sub_add_cancel pos]
    obtain ⟨same, more⟩ := ih (n + 1) (b.fill n) n.succ_pos (by omega)
    rw [text_fill, Nat.add_sub_cancel, later] at same
    simp only [goesOn, ahead_fill b pos, ← List.head?_drop]
    generalize b.text.drop (n - 1) = left at same
    cases left with
    | nil => exact ⟨rfl, fills⟩
    | cons d ds =>
      by_cases fits : d = c
      · subst fits
        simpa [List.isPrefixOf] using And.intro same (fills.trans more)
      · simpa [List.isPrefixOf, fits, Ne.symm fits] using fills

theorem choose_takes (symbols : List (String × Kind)) (b : Buffer)
    (within : ∀ s ∈ symbols, s.1.toList.length < maxLookahead) :
    (choose symbols b).1 =
        (symbols.find? fun s => s.1.toList.isPrefixOf (b.text.drop 1)).map (·.2) ∧
      b.Takes [] (choose symbols b).2 := by
  induction symbols generalizing b with
  | nil => exact ⟨rfl, .refl b⟩
  | cons s others ih =>
    obtain ⟨first, later⟩ := List.forall_mem_cons.mp within
    obtain ⟨fits, looks⟩ := goesOn_takes s.1.toList 2 b (by decide) (by omega)
    have same := looks.text
    rw [List.nil_append] at same
    obtain ⟨suffix, kind⟩ := s
    simp only [choose, List.find?_cons]
    generalize goesOn suffix.toList 2 b = r at fits looks same
    obtain ⟨found, b'⟩ := r
    rw [← fits]
    cases found with
    | true => exact ⟨rfl, looks⟩
    | false =>
      obtain ⟨chosen, more⟩ := ih b' later
      rw [same]
      exact ⟨chosen, looks.trans more⟩

/-- Everything that a symbol can hold may be looked at ahead. -/
theorem symbol?_takes (split : b.text = c :: cs) :
    (b.symbol? c).1 = Scanner.symbolAt? (c :: cs) ∧ b.Takes [] (b.symbol? c).2 := by
  have short : ∀ s ∈ Scanner.branches c, s.1.toList.length < maxLookahead := by
    intro s listed
    obtain ⟨symbol, spelled⟩ := Scanner.of_mem_branches listed
    have held := Kind.of_all (Q := fun k => k.spelling.toList.length ≤ maxLookahead)
      (by decide) symbol
    rw [spelled, List.length_cons] at held
    exact of_decide_eq_true held
  have looks : b.Takes [] (if c = '*' ∧ (b.fill 2).ahead 2 = some '-' then (b.fill 2).fill 4
      else b.fill 2) := by
    have fills : b.Takes [] (b.fill 2) := .fill b (by decide)
    split
    · exact fills.trans (.fill _ (by decide))
    · exact fills
  have same := looks.text
  obtain ⟨chosen, more⟩ := choose_takes (Scanner.branches c) _ short
  refine ⟨chosen.trans ?_, looks.trans more⟩
  rw [List.nil_append] at same
  rw [← same, split]
  rfl

end Loops

section Tokens

/-- What a step gives is what a scanner makes of the reading, and the queue stays short. -/
structure Gives (b : Buffer) (r : Except Error Token × Buffer) (reading : Scanner.Reading) :
    Prop where
  same : (r.1, r.2.scanner) = b.scanner.made reading
  short : b.Short → r.2.Short

/-- The characters of a token were taken. -/
theorem Takes.token (takes : b.Takes cs b') (kind : Kind) (value : String) :
    b.Gives (.ok (b'.emit kind value b.point).1, (b'.emit kind value b.point).2)
      (.token kind value cs b'.text) where
  same := by
    simp only [Scanner.made, Scanner.Reading.token, emit, scanner, ← takes.point, takes.file]
    rfl
  short := takes.short

/-- Nothing could be made of the characters taken. -/
theorem Takes.stuck (takes : b.Takes cs b') (fault : Fault) :
    b.Gives (.error ⟨fault, b.point, b'.file⟩, b') (.stuck fault cs b'.text) where
  same := by
    simp only [Scanner.made, Scanner.Reading.stuck, scanner, ← takes.point, takes.file,
      takes.previous]
  short := takes.short

/-- What was only looked at does not count. -/
theorem Takes.gives {r : Except Error Token × Buffer} {reading : Scanner.Reading}
    (looks : b.Takes [] b') (gives : b'.Gives r reading) : b.Gives r reading where
  same := by
    have same : b'.scanner = b.scanner := by
      have text := looks.text
      rw [List.nil_append] at text
      simp only [scanner, looks.file, looks.point, looks.previous, text, Point.advance_nil]
    rw [← same]
    exact gives.same
  short := gives.short ∘ looks.short

theorem string_gives {mark : Char} (is : mark ∈ Lexeme.marks) (split : b.text = mark :: cs) :
    b.Gives (b.string mark b.point) (Scanner.read b.previous (mark :: cs)) := by
  obtain ⟨first, rest⟩ := Takes.advance_of_text split
  rw [string]
  rcases takeString_takes mark [] b.advance.2 with
    ⟨body, apart, found, takes⟩ | ⟨apart, none, takes⟩
  · have whole := first.trans takes
    have text := whole.text
    generalize b.advance.2.takeString mark [] = r at found whole text
    obtain ⟨o, b'⟩ := r
    obtain rfl : o = some body := found
    rw [← split, text]
    simp only [List.cons_append, List.nil_append, List.append_assoc]
    rw [Scanner.read_string is apart]
    exact whole.token .strVal (String.ofList body)
  · have whole := first.trans takes
    have text := takes.text
    rw [rest] at apart text whole
    generalize b.advance.2.takeString mark [] = r at none whole text
    obtain ⟨o, b'⟩ := r
    obtain rfl : o = Option.none := none
    rw [Scanner.read_openString is apart, ← List.self_eq_append_right.mp text]
    exact whole.stuck (.unterminatedString mark)

theorem startsNumber_takes (split : b.text = c :: cs) :
    (b.startsNumber c).1 = Scanner.startsNumber b.previous (c :: cs) ∧
      b.Takes [] (b.startsNumber c).2 := by
  have second : (b.fill 2).ahead 2 = cs.head? := by
    rw [ahead_fill b Nat.two_pos, split]
    cases cs <;> rfl
  refine ⟨?_, .fill b (by decide)⟩
  rw [startsNumber, second]
  rfl

/-- A number is an optional sign, and the digits and the fraction after it. -/
theorem readNumber_eq {sign unsigned rest : List Char}
    (signed : Scanner.splitSign cs = (sign, unsigned))
    (split : unsigned = (numeral false unsigned).2 ++ rest) :
    Scanner.readNumber cs =
      .token (if (numeral false unsigned).1 then .realVal else .intVal)
        (String.ofList (sign ++ (numeral false unsigned).2)) (sign ++ (numeral false unsigned).2)
        rest := by
  have whole := List.takeWhile_append_dropWhile (p := Char.isDigit) (l := unsigned)
  simp only [Scanner.readNumber, signed, numeral, Bool.false_eq_true, if_false] at split ⊢
  rcases fraction : Scanner.readFraction (unsigned.dropWhile Char.isDigit) with - | ⟨point, after⟩
  · simp only [fraction, Bool.false_eq_true, if_false] at split ⊢
    rw [List.append_cancel_left (whole.trans split)]
  · simp only [fraction, if_true] at split ⊢
    have parts := (Scanner.readFraction_split fraction).1
    rw [← parts, ← List.append_assoc] at whole
    rw [List.append_cancel_left (whole.trans split), List.append_assoc]

theorem number_gives (split : b.text = c :: cs)
    (starts : Scanner.startsNumber b.previous (c :: cs) = true) :
    b.Gives (.ok (b.number b.point).1, (b.number b.point).2)
      (Scanner.read b.previous (c :: cs)) := by
  rw [Scanner.read_number starts]
  have fills := Takes.fill_one b
  have next : (b.fill 1).ahead 1 = some c := by
    rw [ahead_fill b Nat.one_pos, split]
    rfl
  by_cases minus : c = '-'
  · subst minus
    obtain ⟨first, rest⟩ := Takes.advance_of_text ((b.text_fill 1).trans split)
    obtain ⟨same, digits⟩ := takeNumber_takes false ['-'] (b.fill 1).advance.2
    have whole := (fills.trans first).trans digits
    simp only [number, next, if_true]
    have text := digits.text
    rw [rest] at text same whole
    generalize (b.fill 1).advance.2.takeNumber false ['-'] = r at same whole text
    obtain ⟨⟨real, value⟩, b'⟩ := r
    obtain ⟨rfl, rfl⟩ := Prod.mk.inj same
    have signed : Scanner.splitSign ('-' :: cs) = (['-'], cs) := rfl
    rw [readNumber_eq signed text]
    exact whole.token _ _
  · obtain ⟨same, digits⟩ := takeNumber_takes false [] (b.fill 1)
    have whole := fills.trans digits
    have other : ¬ some c = some '-' := by simpa using minus
    simp only [number, next, if_neg other]
    have text := digits.text
    rw [text_fill, split] at text same whole
    generalize (b.fill 1).takeNumber false [] = r at same whole text
    obtain ⟨⟨real, value⟩, b'⟩ := r
    obtain ⟨rfl, rfl⟩ := Prod.mk.inj same
    rw [readNumber_eq (Scanner.splitSign_of_ne minus) text]
    exact whole.token _ _

/-- The walk along the reserved words ends at the kind of the word. -/
theorem readWord_eq {word rest : List Char} (split : cs = word ++ rest)
    (whole : cs.takeWhile Scanner.continuesWord = word) :
    Scanner.readWord cs = match Kind.reserved.find? word with
      | some kind => .token kind kind.spelling word rest
      | none => .token .var (String.ofList word) word rest := by
  have parts := List.takeWhile_append_dropWhile (p := Scanner.continuesWord) (l := cs)
  rw [whole] at parts
  have left := List.append_cancel_left (parts.trans split)
  rw [Scanner.readWord, whole, left, Kind.ofWord]
  rcases found : Kind.reserved.find? word with - | kind
  · rfl
  · obtain ⟨reserved, -⟩ := Kind.find?_reserved_eq_some.mp found
    have plain : kind ≠ .var := by
      rintro rfl
      contradiction
    simp [plain]

theorem word_gives (split : b.text = c :: cs) (starts : Scanner.startsWord c = true) :
    b.Gives (.ok (b.word b.point).1, (b.word b.point).2) (Scanner.read b.previous (c :: cs)) := by
  obtain ⟨same, takes⟩ := takeWord_takes [] (some Kind.reserved) b
  rw [Scanner.read_word starts, ← split, readWord_eq takes.text rfl, word]
  generalize b.takeWord [] (some Kind.reserved) = r at same takes
  obtain ⟨⟨value, node⟩, b'⟩ := r
  obtain ⟨rfl, rfl⟩ := Prod.mk.inj same
  simp only [Option.bind_some, List.nil_append]
  rw [← Trie.find?]
  rcases Kind.reserved.find? (b.text.takeWhile Scanner.continuesWord) with - | kind
  · exact takes.token _ _
  · exact takes.token _ _

theorem symbol_gives (split : b.text = c :: cs) (plain : ¬(c = '"' ∨ c = '\x27'))
    (number : Scanner.startsNumber b.previous (c :: cs) = false)
    (word : Scanner.startsWord c = false) :
    b.Gives (b.symbol c b.point) (Scanner.read b.previous (c :: cs)) := by
  obtain ⟨found, looks⟩ := symbol?_takes split
  rw [Scanner.read, if_neg plain, number, word, ← found, symbol]
  generalize b.symbol? c = r at looks
  obtain ⟨o, b'⟩ := r
  have text : b'.text = c :: cs := looks.text.symm.trans split
  rw [← text]
  cases o with
  | none => exact looks.stuck (.unrecognisedCharacter c)
  | some kind =>
    have takes := looks.trans (.advanceBy kind.spelling.length b')
    have parts := takes.text
    rw [List.nil_append, looks.text, List.nil_append] at parts
    have rest := List.append_cancel_left ((List.take_append_drop ..).trans parts)
    have gives := takes.token kind kind.spelling
    rw [← rest] at gives
    exact gives

theorem token_gives (b : Buffer) : b.Gives b.token (Scanner.read b.previous b.text) := by
  refine (Takes.fill_one b).gives ?_
  rw [← text_fill b 1]
  rcases next : (b.fill 1).ahead 1 with - | c
  · rw [text_fill, text_of_ahead_none next, token]
    simp only [next]
    have ends := (Takes.refl (b.fill 1)).token .eof ""
    rwa [text_fill, text_of_ahead_none next] at ends
  · obtain ⟨cs, split⟩ := text_of_ahead next
    rw [← text_fill b 1] at split
    rw [split, token]
    simp only [next]
    split
    · next mark => exact string_gives (by simpa [Lexeme.marks] using mark) split
    · next plain =>
      obtain ⟨starts, looks⟩ := startsNumber_takes split
      refine looks.gives ?_
      generalize (b.fill 1).startsNumber c = r at starts looks
      obtain ⟨number, b'⟩ := r
      obtain rfl : number = _ := starts
      have split' : b'.text = c :: cs := looks.text.symm.trans split
      have point : b'.point = b.point := looks.point
      have previous : b'.previous = b.previous := looks.previous
      change b'.Gives (if Scanner.startsNumber b.previous (c :: cs) then _ else _) _
      rw [← point, ← previous]
      split
      · next number => exact number_gives split' number
      · next number =>
        split
        · next word => exact word_gives split' word
        · next word => exact symbol_gives split' plain (by simpa using number) (by simpa using word)

/-- Reading through the queue gives what the scanner gives, and leaves what it leaves. -/
theorem next_scanner (b : Buffer) :
    (b.next.1, b.next.2.scanner) = b.scanner.next ∧ (b.Short → b.next.2.Short) := by
  obtain ⟨⟨cs, gap⟩, same⟩ := b.skipGap_takes
  rw [next]
  generalize b.skipGap = r at gap same
  obtain ⟨o, b'⟩ := r
  have file : b'.file = b.file := gap.file
  have previous : b'.previous = b.previous := gap.previous
  cases o with
  | some opened =>
    refine ⟨?_, gap.short⟩
    simp only [Scanner.next, scanner, same, file, previous]
  | none =>
    obtain ⟨made, short⟩ := b'.token_gives
    refine ⟨?_, short ∘ gap.short⟩
    rw [Scanner.next_eq_made same, made, scanner, file, previous]
    rfl

end Tokens

end Buffer
end ScriptSyntax
