import Mathlib.Data.List.TakeWhile
import ScriptSyntax.Proofs.Scan.Emits

/-! Which tokens a source can hold, and how they are written in it. What a scanner reads is a token
that may follow the one before it, in one of its written forms. -/
namespace ScriptSyntax

/-- A token without its place. -/
structure Lexeme where
  kind : Kind
  value : String
deriving DecidableEq

def Token.lexeme (t : Token) : Lexeme := ⟨t.kind, t.value⟩

namespace Lexeme

/-- The marks a string may be written between. -/
def marks : List Char := ['"', '\x27']

/-- The written forms. A string stands between two equal marks that it does not hold. -/
inductive Written : Lexeme → List Char → Prop where
  | plain {kind : Kind} {value : String} (bare : kind ≠ .strVal) :
      Written ⟨kind, value⟩ value.toList
  | quoted {value : String} {mark : Char} (is : mark ∈ marks) (apart : mark ∉ value.toList) :
      Written ⟨.strVal, value⟩ (mark :: (value.toList ++ [mark]))

/-- Decimal digits, none at all included. -/
def Digits (cs : List Char) : Prop := ∀ c ∈ cs, c.isDigit = true

/-- The sign of a number. There is a minus only where no operand ends. -/
inductive Sign (previous : Option Kind) : List Char → Prop where
  | none : Sign previous []
  | minus (free : previous.any Scanner.endsOperand = false) : Sign previous ['-']

/-- Whether a source can hold the token after one of kind `previous`, or as its first. -/
inductive Fits (previous : Option Kind) : Lexeme → Prop where
  | spelled {kind : Kind} (own : kind.isSynthetic = false) (written : kind.spelling ≠ "") :
      Fits previous ⟨kind, kind.spelling⟩
  | name {c : Char} {word : List Char} (starts : Scanner.startsWord c = true)
      (continues : ∀ d ∈ word, Scanner.continuesWord d = true)
      (free : ∀ k : Kind, k.isReserved = true → k.spelling.toList ≠ c :: word) :
      Fits previous ⟨.var, String.ofList (c :: word)⟩
  | int {sign digits : List Char} (signed : Sign previous sign) (some : digits ≠ [])
      (decimal : Digits digits) : Fits previous ⟨.intVal, String.ofList (sign ++ digits)⟩
  | real {sign whole fraction : List Char} (signed : Sign previous sign)
      (anchored : sign ≠ [] → whole ≠ []) (some : fraction ≠ []) (decimal : Digits whole)
      (decimal' : Digits fraction) :
      Fits previous ⟨.realVal, String.ofList (sign ++ whole ++ '.' :: fraction)⟩
  | text {value : String} {mark : Char} (is : mark ∈ marks) (apart : mark ∉ value.toList) :
      Fits previous ⟨.strVal, value⟩

/-- Whether a source can hold the tokens one after the other, after one of kind `previous`. -/
def WellFormed : Option Kind → List Lexeme → Prop
  | _, [] => True
  | previous, l :: ls => l.Fits previous ∧ WellFormed (some l.kind) ls

variable {previous : Option Kind} {l : Lexeme}

theorem Written.ofList {kind : Kind} {cs : List Char} (bare : kind ≠ .strVal) :
    Written ⟨kind, String.ofList cs⟩ cs := by
  have written : Written ⟨kind, String.ofList cs⟩ (String.ofList cs).toList := .plain bare
  rwa [String.toList_ofList] at written

theorem Written.spelled {kind : Kind} (spelled : kind.spelling ≠ "") :
    Written ⟨kind, kind.spelling⟩ kind.spelling.toList := by
  refine .plain ?_
  rintro rfl
  exact spelled rfl

theorem Fits.ne_eof (fits : l.Fits previous) : l.kind ≠ .eof := by
  cases fits with
  | spelled own written =>
    rintro rfl
    exact written rfl
  | _ => nofun

end Lexeme

theorem Kind.own_of_isReserved {k : Kind} (reserved : k.isReserved = true) :
    k.isSynthetic = false := by
  have own := Kind.of_all (Q := fun k => !k.isSynthetic) (by decide) reserved
  simpa using own

namespace Scanner

open Lexeme

variable {previous : Option Kind} {cs rest : List Char} {c mark : Char} {k : Kind} {value : String}

theorem continuesWord_of_startsWord (starts : startsWord c = true) : continuesWord c = true := by
  simp only [startsWord, continuesWord, Bool.or_eq_true, decide_eq_true_eq] at starts ⊢
  exact starts.imp_left .inl

theorem digits_takeWhile (cs : List Char) : Digits (cs.takeWhile Char.isDigit) :=
  fun _ member => List.mem_takeWhile_imp member

theorem readString_spec (is : mark ∈ marks) (ok : (readString mark cs).outcome = .ok (k, value)) :
    Fits previous ⟨k, value⟩ ∧ Written ⟨k, value⟩ (readString mark cs).written := by
  have apart : mark ∉ cs.takeWhile (· != mark) := fun member => by
    simpa using List.mem_takeWhile_imp member
  simp only [readString] at ok ⊢
  split at ok
  · contradiction
  · next close after more =>
    have closes : close = mark := by
      have first := List.head?_dropWhile_not (· != mark) cs
      simpa [more] using first
    subst closes
    cases ok
    refine ⟨.text is (by simpa using apart), ?_⟩
    have written := @Written.quoted (String.ofList (cs.takeWhile (· != close))) close is
      (by simpa using apart)
    simpa [Reading.token] using written

theorem readFraction_spec {fraction : List Char} (found : readFraction cs = some (fraction, rest)) :
    ∃ digits, fraction = '.' :: digits ∧ digits ≠ [] ∧ Digits digits := by
  unfold readFraction at found
  split at found
  · next after =>
    split at found
    · next follows =>
      cases found
      refine ⟨_, rfl, fun none => ?_, digits_takeWhile after⟩
      cases after with
      | nil => simp at follows
      | cons d after => simp_all
    · contradiction
  · contradiction

theorem sign_splitSign (starts : startsNumber previous cs = true) :
    Sign previous (splitSign cs).1 := by
  unfold splitSign
  split
  · next rest =>
    have free : previous.any endsOperand = false := by
      simp only [startsNumber, Bool.or_eq_true, Bool.and_eq_true, decide_eq_true_eq] at starts
      rcases starts with digit | ⟨-, point | ⟨-, free⟩⟩
      · exact absurd digit (by decide)
      · exact absurd point (by decide)
      · simpa using free
    exact .minus free
  · exact .none

theorem readNumber_spec (starts : startsNumber previous cs = true)
    (ok : (readNumber cs).outcome = .ok (k, value)) :
    Fits previous ⟨k, value⟩ ∧ Written ⟨k, value⟩ (readNumber cs).written := by
  have signed := sign_splitSign starts
  have decimal := digits_takeWhile (splitSign cs).2
  have begins := startsNumber_split starts
  simp only [readNumber] at ok ⊢
  split at ok
  · next fraction after found =>
    obtain ⟨digits, rfl, some, decimal'⟩ := readFraction_spec found
    cases ok
    refine ⟨.real signed (fun minus => ?_) some decimal decimal', .ofList (by decide)⟩
    exact begins.resolve_right fun unsigned => minus unsigned.1
  · next absent =>
    cases ok
    refine ⟨.int signed (begins.resolve_right ?_) decimal, .ofList (by decide)⟩
    rintro ⟨-, none, fraction⟩
    have whole := List.takeWhile_append_dropWhile (p := Char.isDigit) (l := (splitSign cs).2)
    rw [none, List.nil_append] at whole
    exact fraction (whole ▸ absent)

theorem readWord_spec (starts : startsWord c = true)
    (ok : (readWord (c :: cs)).outcome = .ok (k, value)) :
    Fits previous ⟨k, value⟩ ∧ Written ⟨k, value⟩ (readWord (c :: cs)).written := by
  have continues := continuesWord_of_startsWord starts
  simp only [readWord, List.takeWhile_cons_of_pos continues] at ok ⊢
  cases ok
  rcases Kind.ofWord_cases (c :: cs.takeWhile continuesWord) with ⟨reserved, same⟩ | ⟨name, free⟩
  · generalize Kind.ofWord (c :: cs.takeWhile continuesWord) = k at reserved same ⊢
    have spelled : k.spelling ≠ "" := fun empty => by simp [empty] at same
    have plain : k ≠ .var := fun var => spelled (var ▸ rfl)
    rw [if_neg plain, Reading.token, ← same]
    exact ⟨.spelled (Kind.own_of_isReserved reserved) spelled, .spelled spelled⟩
  · rw [name, if_pos rfl]
    exact ⟨.name starts (fun d member => List.mem_takeWhile_imp member) free, .ofList (by decide)⟩

theorem symbolAt?_fits (found : symbolAt? cs = some k) :
    Fits previous ⟨k, k.spelling⟩ ∧ Written ⟨k, k.spelling⟩ (cs.take k.spelling.length) := by
  obtain ⟨symbol, ⟨rest, rfl⟩, -⟩ := symbolAt?_spec found
  simp only [Kind.isSymbol, Bool.and_eq_true, decide_eq_true_eq, Bool.not_eq_true'] at symbol
  obtain ⟨⟨spelled, -⟩, own⟩ := symbol
  rw [← String.length_toList, List.take_left]
  exact ⟨.spelled own spelled, .spelled spelled⟩

/-- What is read is a token that fits, in a written form, unless the text is at its end. -/
theorem read_spec (ok : (read previous cs).outcome = .ok (k, value)) :
    cs = [] ∧ k = .eof ∧ value = "" ∨
      Fits previous ⟨k, value⟩ ∧ Written ⟨k, value⟩ (read previous cs).written := by
  cases cs with
  | nil =>
    cases ok
    exact .inl ⟨rfl, rfl, rfl⟩
  | cons c rest =>
    refine .inr ?_
    simp only [read] at ok ⊢
    split at ok
    · next mark =>
      rw [if_pos mark]
      exact readString_spec (by simpa [marks] using mark) ok
    · next mark =>
      rw [if_neg mark]
      split at ok
      · next number =>
        rw [if_pos number]
        exact readNumber_spec number ok
      · next number =>
        rw [if_neg number]
        split at ok
        · next word =>
          rw [if_pos word]
          exact readWord_spec word ok
        · next word =>
          rw [if_neg word]
          split at ok
          · next kind found =>
            cases ok
            exact symbolAt?_fits found
          · contradiction

/-- Every token stands behind a gap in one of its written forms, and fits unless it is the end of
input. That one stands at the end of the text. -/
theorem next_lexeme {s s' : Scanner} {t : Token} (given : s.next = (.ok t, s')) :
    ∃ gap written, s.rest = gap ++ (written ++ s'.rest) ∧ Gap (written ++ s'.rest).isEmpty gap ∧
      t.span = ⟨s.point.advance gap, s'.point⟩ ∧ s'.point = s.point.advance (gap ++ written) ∧
      s'.previous = some t.kind ∧ Written t.lexeme written ∧
      (t.lexeme = ⟨.eof, ""⟩ ∧ s'.rest = [] ∨ Fits s.previous t.lexeme) := by
  obtain ⟨gap, rest, split, is, -, ok, start, stop, rfl⟩ := next_reads given
  have parts := read_split s.previous rest
  refine ⟨gap, (read s.previous rest).written, ?_, ?_, ?_, ?_, rfl, ?_⟩
  · rw [split, parts]
  · rwa [parts]
  · rw [← start]
  · rw [stop, start, Point.advance_append]
  · rcases read_spec ok with ⟨rfl, eof, empty⟩ | ⟨fits, written⟩
    · obtain ⟨kind, value, span⟩ := t
      subst eof empty
      exact ⟨.plain nofun, .inl ⟨rfl, rfl⟩⟩
    · exact ⟨written, .inr fits⟩

/-- After the end of input the scanner gives it again and stays where it is. -/
theorem next_eof {s s' : Scanner} {t : Token} (given : s.next = (.ok t, s')) (eof : t.kind = .eof) :
    s'.next = (.ok t, s') := by
  obtain ⟨gap, rest, -, -, -, ok, start, stop, rfl⟩ := next_reads given
  rcases read_spec ok with ⟨rfl, -, empty⟩ | ⟨fits, -⟩
  · obtain ⟨kind, value, first, last⟩ := t
    have same : last = first := stop
    subst eof empty same
    rfl
  · exact absurd eof fits.ne_eof

theorem Emits.after_eof {s s' s'' : Scanner} {t : Token} {us : List Token}
    (given : s.next = (.ok t, s')) (eof : t.kind = .eof) (reads : s'.Emits us s'') :
    s'' = s' ∧ ∀ u ∈ us, u = t := by
  have again := next_eof given eof
  generalize start : s' = first at reads
  induction reads with
  | nil => exact ⟨rfl, by simp⟩
  | cons read _ ih =>
    subst start
    cases again.symm.trans read
    obtain ⟨same, others⟩ := ih rfl
    exact ⟨same, List.forall_mem_cons.mpr ⟨rfl, others⟩⟩

theorem read_error {previous : Option Kind} {cs : List Char} {fault : Fault}
    (failed : (read previous cs).outcome = .error fault) : fault.faultClass = .lexical := by
  cases cs with
  | nil => contradiction
  | cons c rest =>
    simp only [read] at failed
    split at failed
    · simp only [readString] at failed
      split at failed <;> cases failed
      rfl
    · split at failed
      · simp only [readNumber] at failed
        split at failed <;> cases failed
      · split at failed
        · cases failed
        · split at failed <;> cases failed
          rfl

/-- What the scanner fails with lies in the characters. -/
theorem next_error {s s' : Scanner} {e : Error} (failed : s.next = (.error e, s')) :
    e.fault.faultClass = .lexical := by
  simp only [next] at failed
  split at failed
  · cases failed
    rfl
  · split at failed
    · simp at failed
    · next stuck =>
      cases failed
      exact read_error stuck

end Scanner
end ScriptSyntax
