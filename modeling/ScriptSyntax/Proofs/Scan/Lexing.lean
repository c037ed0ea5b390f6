import ScriptSyntax.Proofs.Scan.Lexeme

/-! Written tokens are read back. A token that fits is read whole off a text that goes on with a
blank or not at all, as a blank is part of nothing but strings. -/
namespace ScriptSyntax

namespace Text

variable {c : Char}

theorem isDigit_iff : c.isDigit = true ↔ 48 ≤ c.toNat ∧ c.toNat ≤ 57 := by
  simpa using Char.isDigit_iff_toNat (c := c)

theorem ascii_of_isDigit (digit : c.isDigit = true) : c.toNat < 0x80 := by
  rw [isDigit_iff] at digit
  omega

theorem isBlank_iff_of_ascii (ascii : c.toNat < 0x80) :
    isBlank c = true ↔ c.toNat = 32 ∨ 9 ≤ c.toNat ∧ c.toNat ≤ 13 := by
  rw [isBlank, if_pos ascii]
  simp [← Char.toNat_inj]

theorem isLetter_iff_of_ascii (ascii : c.toNat < 0x80) : isLetter c = true ↔
    65 ≤ c.toNat ∧ c.toNat ≤ 90 ∨ 97 ≤ c.toNat ∧ c.toNat ≤ 122 := by
  rw [isLetter, if_pos ascii]
  change (decide (65 ≤ c.val ∧ c.val ≤ 90) || decide (97 ≤ c.val) && decide (c.val ≤ 122)) = true ↔
    _
  simp [UInt32.le_iff_toNat_le]

theorem isBlank_of_isDigit (digit : c.isDigit = true) : isBlank c = false := by
  rw [Bool.eq_false_iff, ne_eq, isBlank_iff_of_ascii (ascii_of_isDigit digit)]
  rw [isDigit_iff] at digit
  omega

theorem isLetter_of_isDigit (digit : c.isDigit = true) : isLetter c = false := by
  rw [Bool.eq_false_iff, ne_eq, isLetter_iff_of_ascii (ascii_of_isDigit digit)]
  rw [isDigit_iff] at digit
  omega

theorem CodeRanges.contain_of_apart {as bs : CodeRanges}
    (apart : (as.all fun r => bs.all fun s => r.2 < s.1 || s.2 < r.1) = true)
    (inside : as.contain c = true) : bs.contain c = false := by
  obtain ⟨r, member, low, high⟩ := contain_iff.mp inside
  refine Bool.eq_false_iff.mpr fun also => ?_
  obtain ⟨s, member', low', high'⟩ := contain_iff.mp also
  have check := List.all_eq_true.mp (List.all_eq_true.mp apart r member) s member'
  simp only [Bool.or_eq_true, decide_eq_true_eq] at check
  omega

theorem isLetter_of_isBlank (blank : isBlank c = true) : isLetter c = false := by
  by_cases ascii : c.toNat < 0x80
  · rw [isBlank_iff_of_ascii ascii] at blank
    rw [Bool.eq_false_iff, ne_eq, isLetter_iff_of_ascii ascii]
    omega
  · rw [isBlank, if_neg ascii] at blank
    rw [isLetter, if_neg ascii]
    exact CodeRanges.contain_of_apart (by decide +kernel) blank

theorem isNumeral_of_isBlank (blank : isBlank c = true) : isNumeral c = false := by
  by_cases ascii : c.toNat < 0x80
  · rw [isNumeral, if_pos ascii]
    exact Bool.eq_false_iff.mpr fun digit => by simp [isBlank_of_isDigit digit] at blank
  · rw [isBlank, if_neg ascii] at blank
    rw [isNumeral, if_neg ascii]
    exact CodeRanges.contain_of_apart (by decide) blank

end Text

namespace Scanner

open Lexeme

/-- Whether a text goes on with a blank or not at all. -/
def Ends (rest : List Char) : Prop := ∀ c ∈ rest.head?, Text.isBlank c = true

variable {previous : Option Kind} {cs rest chars word digits : List Char} {c mark : Char}
  {k : Kind} {l : Lexeme}

theorem Ends.nil : Ends [] := by
  simp [Ends]

theorem Ends.head_eq_false {p : Char → Bool} (ends : Ends rest)
    (apart : ∀ c, Text.isBlank c = true → p c = false) : rest.head?.any p = false := by
  cases rest with
  | nil => rfl
  | cons c rest => simpa using apart c (ends c rfl)

/-- A word ends where its text does. -/
theorem Ends.split {p : Char → Bool} (ends : Ends rest)
    (apart : ∀ c, Text.isBlank c = true → p c = false) (all : ∀ d ∈ word, p d = true) :
    (word ++ rest).takeWhile p = word ∧ (word ++ rest).dropWhile p = rest := by
  rw [List.takeWhile_append_of_pos all, List.dropWhile_append_of_pos all]
  cases rest with
  | nil => simp
  | cons c rest => simp [apart c (ends c rfl)]

theorem isDigit_of_isBlank (blank : Text.isBlank c = true) : c.isDigit = false := by
  refine Bool.eq_false_iff.mpr fun digit => ?_
  simp [Text.isBlank_of_isDigit digit] at blank

theorem continuesWord_of_isBlank (blank : Text.isBlank c = true) : continuesWord c = false := by
  have other : c ≠ '_' := by
    rintro rfl
    exact absurd blank (by decide)
  simp [continuesWord, Text.isLetter_of_isBlank blank, Text.isNumeral_of_isBlank blank, other]

theorem isBlank_of_startsWord (starts : startsWord c = true) : Text.isBlank c = false := by
  refine Bool.eq_false_iff.mpr fun blank => ?_
  have continues := continuesWord_of_isBlank blank
  simp [continuesWord_of_startsWord starts] at continues

theorem isDigit_of_startsWord (starts : startsWord c = true) : c.isDigit = false := by
  refine Bool.eq_false_iff.mpr fun digit => ?_
  have letter := Text.isLetter_of_isDigit digit
  simp only [startsWord, letter, Bool.false_or, decide_eq_true_eq] at starts
  subst starts
  exact absurd digit (by decide)

theorem read_string (is : mark ∈ marks) {value : List Char} (apart : mark ∉ value) :
    read previous (mark :: (value ++ mark :: rest)) =
      .token .strVal (String.ofList value) (mark :: (value ++ [mark])) rest := by
  have other : ∀ d ∈ value, (d != mark) = true := fun d member => by
    simpa using fun same : d = mark => apart (same ▸ member)
  rw [read, if_pos (by simpa [marks] using is), readString]
  rw [List.takeWhile_append_of_pos other, List.dropWhile_append_of_pos other]
  simp

theorem read_number (starts : startsNumber previous cs = true) :
    read previous cs = readNumber cs := by
  cases cs with
  | nil => contradiction
  | cons c cs =>
    have plain : ¬(c = '"' ∨ c = '\x27') := by
      rintro (rfl | rfl) <;> simp [startsNumber, Char.isDigit] at starts
    rw [read, if_neg plain, if_pos starts]

theorem splitSign_append {sign : List Char} (signed : Sign previous sign)
    (unsigned : ∀ c ∈ cs.head?, c ≠ '-') : splitSign (sign ++ cs) = (sign, cs) := by
  cases signed with
  | none =>
    cases cs with
    | nil => rfl
    | cons c cs => exact splitSign_of_ne (unsigned c rfl)
  | minus free => rfl

theorem startsNumber_append {sign : List Char} (signed : Sign previous sign)
    (digit : cs.head?.any Char.isDigit = true) : startsNumber previous (sign ++ cs) = true := by
  cases signed with
  | none =>
    cases cs with
    | nil => contradiction
    | cons c cs => simp_all [startsNumber]
  | minus free => simp [startsNumber, digit, free]

theorem Ends.readFraction (ends : Ends rest) : readFraction rest = none := by
  unfold Scanner.readFraction
  split
  · next after => exact absurd (ends '.' rfl) (by decide)
  · rfl

theorem Digits.unsigned (decimal : Digits digits) (some : digits ≠ []) (rest : List Char) :
    (digits ++ rest).head?.any Char.isDigit = true ∧ ∀ c ∈ (digits ++ rest).head?, c ≠ '-' := by
  cases digits with
  | nil => contradiction
  | cons d digits =>
    have digit := decimal d List.mem_cons_self
    refine ⟨by simpa using digit, ?_⟩
    rintro c same rfl
    cases same
    exact absurd digit (by decide)

theorem read_int {sign : List Char} (signed : Sign previous sign) (some : digits ≠ [])
    (decimal : Digits digits) (ends : Ends rest) :
    read previous (sign ++ digits ++ rest) =
      .token .intVal (String.ofList (sign ++ digits)) (sign ++ digits) rest := by
  obtain ⟨begins, unsigned⟩ := Digits.unsigned decimal some rest
  obtain ⟨taken, left⟩ := ends.split (fun _ => isDigit_of_isBlank) decimal
  rw [List.append_assoc, read_number (startsNumber_append signed begins), readNumber]
  simp [splitSign_append signed unsigned, taken, left, ends.readFraction]

theorem readFraction_append (some : digits ≠ []) (decimal : Digits digits) (ends : Ends rest) :
    readFraction ('.' :: digits ++ rest) = Option.some ('.' :: digits, rest) := by
  obtain ⟨begins, -⟩ := Digits.unsigned decimal some rest
  obtain ⟨taken, left⟩ := ends.split (fun _ => isDigit_of_isBlank) decimal
  simp only [List.cons_append, readFraction, begins, if_true, taken, left]

theorem read_real {sign whole : List Char} (signed : Sign previous sign)
    (anchored : sign ≠ [] → whole ≠ []) (some : digits ≠ []) (decimal : Digits whole)
    (decimal' : Digits digits) (ends : Ends rest) :
    read previous (sign ++ whole ++ '.' :: digits ++ rest) =
      .token .realVal (String.ofList (sign ++ whole ++ '.' :: digits))
        (sign ++ whole ++ '.' :: digits) rest := by
  have fraction := readFraction_append some decimal' ends
  have begins : startsNumber previous (sign ++ (whole ++ ('.' :: digits ++ rest))) = true ∧
      ∀ c ∈ (whole ++ ('.' :: digits ++ rest)).head?, c ≠ '-' := by
    by_cases bare : whole = []
    · subst bare
      cases signed with
      | none =>
        obtain ⟨follows, -⟩ := Digits.unsigned decimal' some rest
        simp [startsNumber, -List.head?_append, follows]
      | minus free => exact absurd rfl (anchored (by simp))
    · obtain ⟨begins, unsigned⟩ := Digits.unsigned decimal bare ('.' :: digits ++ rest)
      exact ⟨startsNumber_append signed begins, unsigned⟩
  have taken : (whole ++ ('.' :: digits ++ rest)).takeWhile Char.isDigit = whole ∧
      (whole ++ ('.' :: digits ++ rest)).dropWhile Char.isDigit = '.' :: digits ++ rest := by
    rw [List.takeWhile_append_of_pos decimal, List.dropWhile_append_of_pos decimal]
    simp [show Char.isDigit '.' = false by decide]
  rw [List.append_assoc, List.append_assoc, read_number begins.1, readNumber]
  simp only [splitSign_append signed begins.2, taken.1, taken.2, fraction, List.append_assoc]

theorem read_word (starts : startsWord c = true) :
    read previous (c :: cs) = readWord (c :: cs) := by
  have plain : c ≠ '"' ∧ c ≠ '\x27' ∧ c ≠ '.' ∧ c ≠ '-' := by
    refine ⟨?_, ?_, ?_, ?_⟩ <;>
    · rintro rfl
      exact absurd starts (by decide)
  rw [read, if_neg (by simp [plain]),
    if_neg (by simp [startsNumber, isDigit_of_startsWord starts, plain]), if_pos starts]

theorem read_name (starts : startsWord c = true) (continues : ∀ d ∈ word, continuesWord d = true)
    (ends : Ends rest) :
    read previous (c :: word ++ rest) =
      .token (Kind.ofWord (c :: word))
        (if Kind.ofWord (c :: word) = .var then String.ofList (c :: word)
          else (Kind.ofWord (c :: word)).spelling) (c :: word) rest := by
  have all : ∀ d ∈ c :: word, continuesWord d = true :=
    List.forall_mem_cons.mpr ⟨continuesWord_of_startsWord starts, continues⟩
  obtain ⟨taken, left⟩ := ends.split (fun _ => continuesWord_of_isBlank) all
  rw [List.cons_append, read_word starts, ← List.cons_append, readWord, taken, left]

theorem spelling_of_isReserved (reserved : k.isReserved = true) :
    ∃ c word, k.spelling.toList = c :: word ∧ startsWord c = true ∧
      ∀ d ∈ word, continuesWord d = true := by
  have check := Kind.of_all (Q := fun k => k.spelling.toList.head?.any startsWord &&
    k.spelling.toList.tail.all continuesWord) (by decide) reserved
  cases spelled : k.spelling.toList with
  | nil => simp [spelled] at check
  | cons c word => exact ⟨c, word, rfl, by simpa [spelled] using check⟩

theorem spelling_of_isSymbol (symbol : k.isSymbol = true) :
    ∃ c tail, k.spelling.toList = c :: tail ∧ c ∉ marks ∧ startsWord c = false ∧
      c.isDigit = false ∧ tail.head?.any Char.isDigit = false ∧
      ∀ d ∈ c :: tail, Text.isBlank d = false := by
  have check := Kind.of_all (Q := fun k => k.spelling.toList.head?.any fun c =>
    c ∉ marks && !startsWord c && !c.isDigit && !k.spelling.toList.tail.head?.any Char.isDigit &&
      k.spelling.toList.all fun d => !Text.isBlank d) (by decide) symbol
  cases spelled : k.spelling.toList with
  | nil => simp [spelled] at check
  | cons c tail =>
    refine ⟨c, tail, rfl, ?_⟩
    simpa [spelled, and_assoc] using check

/-- No blank is part of a symbol, so none reaches past one. -/
theorem Ends.spelling_prefix_append (ends : Ends rest) (symbol : k.isSymbol = true) :
    k.spelling.toList <+: cs ++ rest ↔ k.spelling.toList <+: cs := by
  constructor
  · intro begins
    rcases List.prefix_or_prefix_of_prefix begins (List.prefix_append cs rest) with
      inside | ⟨more, split⟩
    · exact inside
    · rw [← split, List.prefix_append_right_inj] at begins
      cases more with
      | nil => exact (List.append_nil cs ▸ split) ▸ List.prefix_refl _
      | cons d more =>
        obtain ⟨_, _, spelled, -, -, -, -, inked⟩ := spelling_of_isSymbol symbol
        obtain ⟨later, rfl⟩ := begins
        have blank := ends d rfl
        rw [inked d (by rw [← spelled, ← split]; simp)] at blank
        contradiction
  · exact fun begins => begins.trans (List.prefix_append ..)

theorem symbolAt?_spelling (symbol : k.isSymbol = true) (ends : Ends rest) :
    symbolAt? (k.spelling.toList ++ rest) = some k := by
  apply symbolAt?_eq_some_iff.mpr
  refine ⟨symbol, List.prefix_append .., fun m symbol' begins => ?_⟩
  exact ((ends.spelling_prefix_append symbol').mp begins).length_le

theorem read_symbol (symbol : k.isSymbol = true) (ends : Ends rest) :
    read previous (k.spelling.toList ++ rest) = .token k k.spelling k.spelling.toList rest := by
  have found := symbolAt?_spelling symbol ends
  obtain ⟨c, tail, spelled, plain, word, digit, digits, -⟩ := spelling_of_isSymbol symbol
  have follows : (tail ++ rest).head?.any Char.isDigit = false := by
    cases tail with
    | nil => exact ends.head_eq_false fun _ => isDigit_of_isBlank
    | cons d tail => simpa using digits
  rw [spelled] at found ⊢
  rw [List.cons_append] at found ⊢
  rw [read, if_neg (by simpa [marks] using plain), 
    if_neg (by simp [startsNumber, digit, follows, -List.head?_append]),
    if_neg (by simp [word]), found]
  have width : k.spelling.length = (c :: tail).length := by rw [← spelled, String.length_toList]
  simp only [width, ← List.cons_append, List.take_left, List.drop_left]

theorem read_spelling (own : k.isSynthetic = false) (written : k.spelling ≠ "") (ends : Ends rest) :
    read previous (k.spelling.toList ++ rest) = .token k k.spelling k.spelling.toList rest := by
  by_cases reserved : k.isReserved = true
  · obtain ⟨c, word, spelled, starts, continues⟩ := spelling_of_isReserved reserved
    have same : Kind.ofWord (c :: word) = k := spelled ▸ Kind.ofWord_spelling reserved
    have plain : k ≠ .var := by
      rintro rfl
      exact written rfl
    rw [spelled, read_name starts continues ends, same, if_neg plain]
  · exact read_symbol (by simp [Kind.isSymbol, written, reserved, own]) ends

theorem Inked.of_head (ink : Text.isBlank c = false) (plain : c ≠ '/') : Inked (c :: cs) := by
  refine ⟨?_, ?_, by simpa using ink⟩ <;>
  · rintro ⟨rest, same⟩
    cases same
    exact plain rfl

theorem Inked.append (inked : Inked chars) (some : chars ≠ []) (ends : Ends rest) :
    Inked (chars ++ rest) := by
  cases chars with
  | nil => contradiction
  | cons c tail =>
    obtain ⟨noLine, noBlock, ink⟩ := inked
    cases tail with
    | nil =>
      -- What would make a comment of a last slash is no blank.
      refine ⟨?_, ?_, ink⟩ <;>
      · rintro ⟨after, same⟩
        cases same
        exact absurd (ends _ rfl) (by decide)
    | cons d tail =>
      refine ⟨fun begins => noLine ?_, fun begins => noBlock ?_, ink⟩ <;>
      · obtain ⟨after, same⟩ := begins
        cases same
        exact ⟨tail, rfl⟩

end Scanner

namespace Lexeme

open Scanner

variable {previous : Option Kind} {rest chars : List Char} {l : Lexeme}

/-- A written token is read back from where it begins. -/
theorem Fits.read (fits : l.Fits previous) (written : l.Written chars)
    (ends : Scanner.Ends rest) :
    Scanner.read previous (chars ++ rest) = .token l.kind l.value chars rest := by
  cases fits with
  | spelled own spelled =>
    cases written with
    | plain bare => exact read_spelling own spelled ends
    | quoted is apart => exact absurd rfl spelled
  | name starts continues free =>
    cases written with
    | plain bare =>
      rw [String.toList_ofList, read_name starts continues ends, Kind.ofWord_of_free free,
        if_pos rfl]
  | int signed some decimal =>
    cases written with
    | plain bare =>
      rw [String.toList_ofList]
      exact read_int signed some decimal ends
  | real signed anchored some decimal decimal' =>
    cases written with
    | plain bare =>
      rw [String.toList_ofList]
      exact read_real signed anchored some decimal decimal' ends
  | text =>
    cases written with
    | plain bare => exact absurd rfl bare
    | quoted is apart => simpa using read_string is apart

theorem Digits.inked (decimal : Digits chars) (some : chars ≠ []) (rest : List Char) :
    Inked (chars ++ rest) := by
  cases chars with
  | nil => contradiction
  | cons d digits =>
    have digit := decimal d List.mem_cons_self
    refine Inked.of_head (Text.isBlank_of_isDigit digit) ?_
    rintro rfl
    exact absurd digit (by decide)

/-- No written token begins with a blank or a comment. -/
theorem Fits.inked (fits : l.Fits previous) (written : l.Written chars) :
    chars ≠ [] ∧ Inked chars := by
  cases fits with
  | @spelled kind own spelled =>
    cases written with
    | plain bare =>
      have check := Kind.of_all (P := fun k => k.spelling ≠ "") (Q := fun k =>
        ¬ ['/', '/'] <+: k.spelling.toList && ¬ ['/', '*'] <+: k.spelling.toList &&
          k.spelling.toList.head?.all fun c => !Text.isBlank c) (by decide)
        (decide_eq_true spelled)
      refine ⟨by simpa using spelled, ?_⟩
      simp only [Bool.and_eq_true, decide_eq_true_eq, Option.all_eq_true, Bool.not_eq_true']
        at check
      exact ⟨check.1.1, check.1.2, check.2⟩
    | quoted is apart => exact absurd rfl spelled
  | name starts continues free =>
    cases written with
    | plain bare =>
      rw [String.toList_ofList]
      refine ⟨by simp, Inked.of_head (isBlank_of_startsWord starts) ?_⟩
      rintro rfl
      exact absurd starts (by decide)
  | @int sign digits signed some decimal =>
    cases written with
    | plain bare =>
      rw [String.toList_ofList]
      refine ⟨by simp [some], ?_⟩
      cases signed with
      | none => simpa using Digits.inked decimal some []
      | minus free => exact Inked.of_head (by decide) (by decide)
  | @real sign whole fraction signed anchored some decimal decimal' =>
    cases written with
    | plain bare =>
      rw [String.toList_ofList]
      refine ⟨by simp, ?_⟩
      cases signed with
      | none =>
        by_cases bare : whole = []
        · rw [bare]
          exact Inked.of_head (by decide) (by decide)
        · exact Digits.inked decimal bare _
      | minus free => exact Inked.of_head (by decide) (by decide)
  | text =>
    cases written with
    | plain bare => exact absurd rfl bare
    | quoted is apart =>
      refine ⟨by simp, ?_⟩
      simp only [marks, List.mem_cons, List.not_mem_nil, or_false] at is
      rcases is with rfl | rfl <;> exact Inked.of_head (by decide) (by decide)

end Lexeme
end ScriptSyntax
