import ScriptSyntax.Proofs.Scan.Lexing

/-! Symbols are read as long as they can be. Where one is read no other spelling of the catalog
reaches further, and a character at which the scanner fails begins nothing that it could read. -/
namespace ScriptSyntax

namespace Kind

/-- Whether a kind is spelled with letters only. So is a kind without a spelling. -/
def isWord (k : Kind) : Bool := k.spelling.toList.all Text.isLetter

/-- No kind that is read from text has a spelling that the text begins with and that is longer. -/
def IsLongest (k : Kind) (cs : List Char) : Prop :=
  k.spelling.toList <+: cs ∧ ∀ m : Kind, m.isSynthetic = false → m.spelling.toList <+: cs →
    m.spelling.toList.length ≤ k.spelling.toList.length

variable {k : Kind}

theorem isWord_of_isReserved (reserved : k.isReserved = true) : k.isWord = true :=
  of_all (by decide) reserved

/-- A spelling that only the grammar gives is the spelling of a symbol as well. -/
theorem exists_isSymbol (synthetic : k.isSynthetic = true) (written : k.spelling ≠ "") :
    ∃ m : Kind, m.isSymbol = true ∧ m.spelling = k.spelling := by
  obtain rfl | rfl | rfl : k = .deref ∨ k = .point ∨ k = .strBound := by
    cases k <;> first | contradiction | simp
  · exact ⟨.bAnd, by decide, rfl⟩
  · exact ⟨.multiply, by decide, rfl⟩
  · exact absurd rfl written

/-- What is spelled at all is a word or a symbol. -/
theorem isReserved_or_exists_isSymbol (written : k.spelling ≠ "") :
    k.isReserved = true ∨ ∃ m : Kind, m.isSymbol = true ∧ m.spelling = k.spelling := by
  by_cases reserved : k.isReserved = true
  · exact .inl reserved
  by_cases synthetic : k.isSynthetic = true
  · exact .inr (exists_isSymbol synthetic written)
  · exact .inr ⟨k, by simp [isSymbol, written, reserved, synthetic], rfl⟩

end Kind

namespace Scanner

open Lexeme

variable {previous : Option Kind} {cs rest : List Char} {c : Char} {k : Kind} {value : String}

/-- Nothing that can be read begins with the character, where `rest` comes after it. -/
structure Stray (c : Char) (rest : List Char) : Prop where
  blank : Text.isBlank c = false
  mark : c ∉ marks
  digit : c.isDigit = false
  letter : Text.isLetter c = false
  underscore : c ≠ '_'
  spelled : ∀ k : Kind, k.spelling ≠ "" → ¬ k.spelling.toList <+: c :: rest

/-- The symbol that is found is longest among all spellings: no word begins like a symbol. -/
theorem isLongest_of_symbolAt? (found : symbolAt? cs = some k) : k.IsLongest cs := by
  obtain ⟨symbol, begins, longest⟩ := symbolAt?_spec found
  refine ⟨begins, fun m read begins' => ?_⟩
  by_cases empty : m.spelling = ""
  · simp [empty]
  rcases Kind.isReserved_or_exists_isSymbol empty with reserved | ⟨m', symbol', same⟩
  · obtain ⟨c, tail, spelled, -, sign, -⟩ := spelling_of_isSymbol symbol
    obtain ⟨d, word, spelled', letter, -⟩ := spelling_of_isReserved reserved
    obtain ⟨more, rfl⟩ := begins
    rw [spelled, spelled', List.cons_append, List.cons_prefix_cons] at begins'
    rw [begins'.1, sign] at letter
    contradiction
  · rw [← same] at begins' ⊢
    exact longest m' symbol' begins'

/-- Where no symbol and no word begins, no spelling of the catalog does. -/
theorem not_prefix_of_symbolAt? (none : symbolAt? (c :: rest) = none) (sign : startsWord c = false)
    (written : k.spelling ≠ "") : ¬ k.spelling.toList <+: c :: rest := by
  intro begins
  rcases Kind.isReserved_or_exists_isSymbol written with reserved | ⟨m, symbol, same⟩
  · obtain ⟨d, word, spelled, letter, -⟩ := spelling_of_isReserved reserved
    rw [spelled, List.cons_prefix_cons] at begins
    rw [begins.1, sign] at letter
    contradiction
  · have found := symbolAt?_isSome symbol (same ▸ begins)
    rw [none] at found
    contradiction

/-- What is neither a word nor text of its own was found as a symbol. -/
theorem symbolAt?_of_read (ok : (read previous cs).outcome = .ok (k, value))
    (written : k.spelling ≠ "") (sign : k.isWord = false) :
    symbolAt? cs = some k ∧ cs = k.spelling.toList ++ (read previous cs).rest := by
  cases cs with
  | nil =>
    cases ok
    exact absurd rfl written
  | cons c rest =>
    simp only [read] at ok ⊢
    split at ok
    · simp only [readString] at ok
      split at ok <;> cases ok
      exact absurd rfl written
    · next mark =>
      rw [if_neg mark]
      split at ok
      · simp only [readNumber] at ok
        split at ok <;> cases ok <;> exact absurd rfl written
      · next number =>
        rw [if_neg number]
        split at ok
        · next word =>
          cases ok
          rcases Kind.ofWord_cases ((c :: rest).takeWhile continuesWord) with
            ⟨reserved, -⟩ | ⟨name, -⟩
          · rw [Kind.isWord_of_isReserved reserved] at sign
            contradiction
          · rw [name] at written
            exact absurd rfl written
        · next word =>
          rw [if_neg word]
          split at ok
          · next kind found =>
            cases ok
            obtain ⟨more, split⟩ := (symbolAt?_spec found).2.1
            refine ⟨found, ?_⟩
            simp only [Reading.token]
            rw [← split, ← String.length_toList, List.drop_left]
          · contradiction

theorem stray_of_read (stuck : (read previous cs).outcome = .error (.unrecognisedCharacter c))
    (inked : Inked cs) : ∃ rest, cs = c :: rest ∧ Stray c rest := by
  cases cs with
  | nil => contradiction
  | cons d rest =>
    simp only [read] at stuck
    split at stuck
    · simp only [readString] at stuck
      split at stuck <;> cases stuck
    · next mark =>
      split at stuck
      · simp only [readNumber] at stuck
        split at stuck <;> cases stuck
      · next number =>
        split at stuck
        · cases stuck
        · next word =>
          split at stuck
          · cases stuck
          · next none =>
            cases stuck
            have sign := Bool.eq_false_iff.mpr word
            have letter := word
            have digit := number
            simp only [startsWord, Bool.or_eq_true, decide_eq_true_eq, not_or,
              Bool.not_eq_true] at letter
            simp only [startsNumber, Bool.or_eq_true, not_or, Bool.not_eq_true] at digit
            refine ⟨rest, rfl, ?_⟩
            constructor
            case blank => exact inked.2.2 c rfl
            case mark => simpa [marks] using mark
            case digit => exact digit.1
            case letter => exact letter.1
            case underscore => exact letter.2
            case spelled => exact fun k written => not_prefix_of_symbolAt? none sign written

/-- A character that is not recognised stands right behind a gap, and the scanner stays there. -/
theorem next_stuck {s s' : Scanner} {e : Error} (failed : s.next = (.error e, s'))
    (fault : e.fault = .unrecognisedCharacter c) :
    ∃ gap rest, s.rest = gap ++ rest ∧ Gap rest.isEmpty gap ∧ Inked rest ∧
      e.position = ⟨s.point.advance gap, s.file⟩ ∧
      (read s.previous rest).outcome = .error (.unrecognisedCharacter c) := by
  obtain ⟨gap, split, place, is⟩ := skipGap_split .outside s.point s.rest
  simp only [next] at failed
  split at failed
  · cases failed
    contradiction
  · next closed =>
    split at failed
    · simp at failed
    · next stuck =>
      cases failed
      refine ⟨gap, _, split.symm, is closed, skipGap_inked _ _ _ closed, ?_, fault ▸ stuck⟩
      rw [place]

/-- A token of signs is the longest of the catalog that the text behind the gap begins with, and
the scanner goes on right after it. A character that is not recognised begins nothing at all. -/
theorem next_longest (s : Scanner) :
    (∀ t s', s.next = (.ok t, s') → t.kind.spelling ≠ "" → t.kind.isWord = false →
      ∃ gap cs, s.rest = gap ++ cs ∧ Gap cs.isEmpty gap ∧ t.span.start = s.point.advance gap ∧
        t.kind.IsLongest cs ∧ cs = t.kind.spelling.toList ++ s'.rest) ∧
    ∀ e s' c, s.next = (.error e, s') → e.fault = .unrecognisedCharacter c →
      ∃ gap rest, s.rest = gap ++ c :: rest ∧ Gap false gap ∧
        e.position = ⟨s.point.advance gap, s.file⟩ ∧ Stray c rest := by
  constructor
  · intro t s' given written sign
    obtain ⟨gap, cs, split, is, -, ok, start, -, rfl⟩ := next_reads given
    obtain ⟨found, parts⟩ := symbolAt?_of_read ok written sign
    exact ⟨gap, cs, split, is, start, isLongest_of_symbolAt? found, parts⟩
  · intro e s' c failed fault
    obtain ⟨gap, cs, split, is, inked, place, stuck⟩ := next_stuck failed fault
    obtain ⟨rest, rfl, stray⟩ := stray_of_read stuck inked
    exact ⟨gap, rest, split, is, place, stray⟩

/-- An opening brace is no set type that is cut short, and a dollar sign begins nothing. -/
theorem next_longest_brace :
    (∃ t s', (ofText "/**/\x7b>$" none).next = (.ok t, s') ∧ t.kind = .scopeOpen ∧
      t.kind.IsLongest "\x7b>$".toList) ∧
    ∃ e s', (ofText "$" none).next = (.error e, s') ∧ Stray '$' [] := by
  constructor
  · have given : (ofText "/**/\x7b>$" none).next =
        (.ok ⟨.scopeOpen, "\x7b", ⟨⟨1, 5⟩, ⟨1, 6⟩⟩⟩,
          ⟨defaultFile, ">$".toList, ⟨1, 6⟩, some .scopeOpen⟩) := by decide +kernel
    obtain ⟨gap, cs, -, -, -, longest, rfl⟩ :=
      (next_longest (ofText "/**/\x7b>$" none)).1 _ _ given (by decide) (by decide +kernel)
    exact ⟨_, _, given, rfl, longest⟩
  · have failed : (ofText "$" none).next =
        (.error ⟨.unrecognisedCharacter '$', ⟨⟨1, 1⟩, defaultFile⟩⟩,
          ⟨defaultFile, "$".toList, ⟨1, 1⟩, none⟩) := by decide +kernel
    obtain ⟨gap, rest, split, -, -, stray⟩ :=
      (next_longest (ofText "$" none)).2 _ _ _ failed rfl
    have lengths : 1 = gap.length + (rest.length + 1) := by
      simpa [ofText] using congrArg List.length split
    obtain rfl := List.eq_nil_of_length_eq_zero (by omega : rest.length = 0)
    exact ⟨_, _, failed, stray⟩

end Scanner
end ScriptSyntax
