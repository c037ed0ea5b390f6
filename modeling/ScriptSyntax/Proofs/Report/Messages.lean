import Mathlib.Data.List.TakeWhile
import ScriptSyntax.Fault

/-! The message of an error tells the error. An escape can be read back whatever comes after it, so
a quoted text ends where it ends in any message that holds it. The messages of two kinds of faults
differ before anything quoted, and the position is read from the right. -/
namespace ScriptSyntax

namespace Text

variable {mark c : Char} {cs ds xs ys rest : List Char}

/-- What stands before the first `mark` and what comes after it. -/
theorem append_cons_inj (apart : mark ∉ cs) (apart' : mark ∉ ds) :
    cs ++ mark :: xs = ds ++ mark :: ys ↔ cs = ds ∧ xs = ys := by
  have first (cs xs : List Char) (apart : mark ∉ cs) :
      (cs ++ mark :: xs).takeWhile (· != mark) = cs := by
    have before : ∀ c ∈ cs, (c != mark) = true := fun c member => by
      simpa using ne_of_mem_of_not_mem member apart
    rw [List.takeWhile_append_of_pos before]
    simp
  constructor
  · intro same
    obtain rfl : cs = ds := by rw [← first cs xs apart, same, first ds ys apart']
    simpa using same
  · rintro ⟨rfl, rfl⟩
    rfl

/-- What comes after the last `mark` and what stands before it. -/
theorem append_cons_inj_right (apart : mark ∉ xs) (apart' : mark ∉ ys) :
    cs ++ mark :: xs = ds ++ mark :: ys ↔ cs = ds ∧ xs = ys := by
  rw [← List.reverse_inj]
  simp only [List.reverse_append, List.reverse_cons, List.append_assoc, List.singleton_append]
  rw [append_cons_inj (by simpa using apart) (by simpa using apart'), List.reverse_inj,
    List.reverse_inj, and_comm]

section Escapes

/-- The value of a hexadecimal digit. -/
def digitValue (c : Char) : Nat := (List.range 16).findIdx fun d => d.digitChar == c

def hexValue (digits : List Char) : Nat := digits.foldl (fun n c => 16 * n + digitValue c) 0

theorem digitValue_digitChar {d : Nat} (within : d < 16) : digitValue d.digitChar = d := by
  revert d
  decide

theorem hexValue_toDigits (n : Nat) : hexValue (Nat.toDigits 16 n) = n := by
  induction n using Nat.strongRecOn with
  | ind n ih =>
    rw [Nat.toDigits_eq_if (by decide)]
    split
    · next small => simp [hexValue, digitValue_digitChar small]
    · next large =>
      have last := digitValue_digitChar (Nat.mod_lt n (by decide : 0 < 16))
      rw [hexValue, List.foldl_append, ← hexValue, ih _ (by omega), List.foldl_cons, List.foldl_nil,
        last, Nat.div_add_mod]

theorem brace_notMem_toDigits (n : Nat) : '\x7d' ∉ Nat.toDigits 16 n := by
  induction n using Nat.strongRecOn with
  | ind n ih =>
    have other (d : Nat) : d.digitChar ≠ '\x7d' := Nat.digitChar_ne _ (by decide)
    rw [Nat.toDigits_eq_if (by decide)]
    split
    · simp [(other n).symm]
    · simp [ih (n / 16) (by omega), (other _).symm]

/-- What stands after a backslash, but for the mark. -/
def shorts : List Char := ['0', 't', 'r', 'n', 'u', '\\']

/-- Reads one character as it is written between marks. -/
def unescape : List Char → Option (Char × List Char)
  | '\\' :: '0' :: rest => some ('\x00', rest)
  | '\\' :: 't' :: rest => some ('\t', rest)
  | '\\' :: 'r' :: rest => some ('\r', rest)
  | '\\' :: 'n' :: rest => some ('\n', rest)
  | '\\' :: 'u' :: '\x7b' :: rest =>
    some (Char.ofNat (hexValue (rest.takeWhile (· != '\x7d'))),
      (rest.dropWhile (· != '\x7d')).drop 1)
  | '\\' :: c :: rest => some (c, rest)
  | c :: rest => some (c, rest)
  | [] => none

theorem unescape_codeEscape (c : Char) (rest : List Char) :
    unescape (codeEscape c ++ rest) = some (c, rest) := by
  have digits : ∀ d ∈ Nat.toDigits 16 c.toNat, (d != '\x7d') = true := fun d member => by
    simpa using ne_of_mem_of_not_mem member (brace_notMem_toDigits _)
  simp only [codeEscape, List.append_assoc, List.cons_append, List.nil_append, unescape]
  rw [List.takeWhile_append_of_pos digits, List.dropWhile_append_of_pos digits]
  simp [hexValue_toDigits]

/-- An escaped character is read back, and what comes after it is left. -/
theorem unescape_escape (plain : mark ∉ shorts) (c : Char) (rest : List Char) :
    unescape (escape mark c ++ rest) = some (c, rest) := by
  simp only [shorts, List.mem_cons, List.not_mem_nil, or_false, not_or] at plain
  unfold escape
  split_ifs with zero tab back feed marked code
  · rw [zero]; rfl
  · rw [tab]; rfl
  · rw [back]; rfl
  · rw [feed]; rfl
  · rcases marked with rfl | rfl
    · rfl
    · simp [unescape, plain]
  · exact unescape_codeEscape c rest
  · simp only [not_or] at marked
    simp [unescape, marked]

theorem escape_append_inj (plain : mark ∉ shorts) {c d : Char} :
    escape mark c ++ xs = escape mark d ++ ys ↔ c = d ∧ xs = ys := by
  constructor
  · intro same
    have read := congrArg unescape same
    rwa [unescape_escape plain, unescape_escape plain, Option.some_inj, Prod.mk.injEq] at read
  · rintro ⟨rfl, rfl⟩
    rfl

/-- No character is written in a way that begins with the mark. -/
theorem escape_append_ne (plain : mark ∉ shorts) : escape mark c ++ xs ≠ mark :: ys := by
  have backslash : '\\' ≠ mark := by
    rintro rfl
    exact plain (by decide)
  unfold escape
  split_ifs with _ _ _ _ marked
  case neg => simpa using fun same => absurd same (not_or.mp marked).2
  all_goals simp [codeEscape, backslash]

/-- A quoted text ends in the same place whatever comes after it. -/
theorem quoted_append_inj (plain : mark ∉ shorts) :
    quoted mark cs ++ xs = quoted mark ds ++ ys ↔ cs = ds ∧ xs = ys := by
  constructor
  · intro same
    simp only [quoted, List.cons_append, List.append_assoc, List.nil_append, List.cons_inj_right]
      at same
    induction cs generalizing ds with
    | nil =>
      cases ds with
      | nil => simpa using same
      | cons d ds =>
        rw [List.flatMap_cons, List.append_assoc] at same
        exact absurd same.symm (escape_append_ne plain)
    | cons c cs ih =>
      cases ds with
      | nil =>
        rw [List.flatMap_cons, List.append_assoc] at same
        exact absurd same (escape_append_ne plain)
      | cons d ds =>
        rw [List.flatMap_cons, List.flatMap_cons, List.append_assoc, List.append_assoc,
          escape_append_inj plain] at same
        obtain ⟨rfl, more⟩ := same
        simpa using ih more
  · rintro ⟨rfl, rfl⟩
    rfl

end Escapes

theorem quotedText_append_inj {s t : String} :
    (quotedText s).toList ++ xs = (quotedText t).toList ++ ys ↔ s = t ∧ xs = ys := by
  rw [quotedText, quotedText, String.toList_ofList, String.toList_ofList,
    quoted_append_inj (by decide), String.toList_inj]

theorem quotedChar_append_inj {c d : Char} :
    (quotedChar c).toList ++ xs = (quotedChar d).toList ++ ys ↔ c = d ∧ xs = ys := by
  rw [quotedChar, quotedChar, String.toList_ofList, String.toList_ofList,
    quoted_append_inj (by decide), List.singleton_inj]

theorem notMem_toString (other : c.isDigit = false) (n : Nat) : c ∉ (toString n).toList := by
  intro member
  rw [Nat.toString_eq_ofList_toDigits, String.toList_ofList] at member
  have digit := Nat.isDigit_of_mem_toDigits (by decide) (by decide) member
  simp [digit] at other

theorem toString_toList_inj {m n : Nat} : (toString m).toList = (toString n).toList ↔ m = n := by
  rw [Nat.toString_eq_ofList_toDigits, Nat.toString_eq_ofList_toDigits, String.toList_ofList,
    String.toList_ofList]
  refine ⟨fun same => ?_, congrArg _⟩
  rw [← @Nat.ofDigitChars_ten_toDigits m, same, Nat.ofDigitChars_ten_toDigits]

/-- A number ends where something else than a digit comes. -/
theorem toString_append_inj {m n : Nat} (other : mark.isDigit = false) :
    (toString m).toList ++ mark :: xs = (toString n).toList ++ mark :: ys ↔ m = n ∧ xs = ys := by
  rw [append_cons_inj (notMem_toString other m) (notMem_toString other n), toString_toList_inj]

end Text

theorem Position.text_inj {p q : Position} : p.text = q.text ↔ p = q := by
  constructor
  · intro same
    obtain ⟨⟨line, column⟩, file⟩ := p
    obtain ⟨⟨line', column'⟩, file'⟩ := q
    have colon (n : Nat) : ':' ∉ (toString n).toList := Text.notMem_toString (by decide) n
    have one : ":".toList = [':'] := rfl
    have written := congrArg String.toList same
    simp only [text, String.toList_append, one, List.append_assoc, List.singleton_append] at written
    rw [← List.append_assoc, ← List.append_assoc,
      Text.append_cons_inj_right (colon _) (colon _),
      Text.append_cons_inj_right (colon _) (colon _)] at written
    rw [String.toList_inj, Text.toString_toList_inj, Text.toString_toList_inj] at written
    obtain ⟨⟨rfl, rfl⟩, rfl⟩ := written
    rfl
  · rintro rfl
    rfl

namespace Fault

open Text

variable {f g : Fault} {xs ys : List Char}

/-- What a message begins with, which depends on the kind of the fault alone. -/
def lead : Fault → String
  | unrecognisedCharacter .. => "unrecognised character: "
  | unterminatedString .. => "unterminated string literal, expected "
  | unterminatedComment => "unterminated block comment"
  | unexpectedToken .. => "unexpected token: "
  | unexpectedTokenDetailed .. => "unexpected token ("
  | expectedToken .. => "expected "
  | invalidClassStatement .. => "invalid statement in class body: "
  | invalidMapKey .. => "invalid map key: "
  | invalidType .. => "invalid type: "
  | assignmentNotAllowed .. => "assignment not allowed here: "
  | tooManyLoopSections .. => "too many loop sections: "
  | lookaheadExceeded .. => "lookahead of "

/-- What comes after the lead. -/
def details : Fault → List Char
  | unrecognisedCharacter c | unterminatedString c => (quotedChar c).toList
  | unterminatedComment => []
  | unexpectedTokenDetailed t m =>
    (quotedText m).toList ++ ("): ".toList ++ (quotedText t).toList)
  | expectedToken e f => (quotedText e).toList ++ (", found ".toList ++ (quotedText f).toList)
  | unexpectedToken t | invalidClassStatement t | invalidMapKey t | invalidType t
  | assignmentNotAllowed t => (quotedText t).toList
  | tooManyLoopSections n => (toString n).toList
  | lookaheadExceeded n =>
    (toString n).toList ++ ' ' :: "tokens exceeds the parser's limit".toList

theorem message_toList (f : Fault) : f.message.toList = f.lead.toList ++ f.details := by
  cases f
  case unterminatedComment => exact (List.append_nil _).symm
  case lookaheadExceeded =>
    dsimp only [message, lead, details]
    simp only [String.toList_append, List.append_assoc]
    rfl
  all_goals
    dsimp only [message, lead, details]
    simp only [String.toList_append, List.append_assoc]

/-- No lead is how the lead of another kind of fault begins. -/
theorem kinds_of_leads (begins : f.lead.toList <+: g.lead.toList) :
    f.ctorIdx = g.ctorIdx ∧ f.lead = g.lead := by
  revert begins
  cases f <;> cases g <;> first
    | exact fun _ => ⟨rfl, rfl⟩
    | dsimp only [lead]; intro begins; exact absurd begins (by decide)

/-- Whether the details of the faults tell them apart, whatever stands after a blank. -/
def Told (f g : Fault) : Prop :=
  ∀ xs ys, f.details ++ ' ' :: xs = g.details ++ ' ' :: ys → f = g ∧ xs = ys

theorem told_of_ctorIdx_eq (kinds : f.ctorIdx = g.ctorIdx) : f.Told g := by
  cases f
  all_goals
    refine Fault.ctorElim (motive := Told _) _ g kinds ⟨?_⟩
    intros
    intro xs ys same
    have blank : Char.isDigit ' ' = false := by decide
    simp only [details, List.append_assoc, List.cons_append, List.nil_append,
      List.append_cancel_left_eq, List.cons_inj_right, quotedText_append_inj,
      quotedChar_append_inj, toString_append_inj blank] at same
    simp [same]

/-- A message ends in the same place whatever comes after the blank behind it. -/
theorem message_append_inj :
    f.message.toList ++ ' ' :: xs = g.message.toList ++ ' ' :: ys ↔ f = g ∧ xs = ys := by
  constructor
  · intro same
    rw [message_toList, message_toList, List.append_assoc, List.append_assoc] at same
    have begins : f.lead.toList <+: g.lead.toList ++ (g.details ++ ' ' :: ys) :=
      same ▸ List.prefix_append ..
    obtain ⟨kinds, leads⟩ : f.ctorIdx = g.ctorIdx ∧ f.lead = g.lead := by
      rcases List.prefix_or_prefix_of_prefix begins (List.prefix_append ..) with first | second
      · exact kinds_of_leads first
      · exact (kinds_of_leads second).imp Eq.symm Eq.symm
    rw [leads, List.append_cancel_left_eq] at same
    exact told_of_ctorIdx_eq kinds _ _ same
  · rintro ⟨rfl, rfl⟩
    rfl

end Fault

/-- The message of an error tells what is wrong, and where, in every detail. -/
theorem Error.message_inj (e e' : Error) : e.message = e'.message ↔ e = e' := by
  constructor
  · intro same
    obtain ⟨f, p⟩ := e
    obtain ⟨g, q⟩ := e'
    have written := congrArg String.toList same
    have blank : " at ".toList = ' ' :: "at ".toList := rfl
    simp only [message, String.toList_append, List.append_assoc, blank, List.cons_append] at written
    obtain ⟨rfl, places⟩ := Fault.message_append_inj.mp written
    rw [List.append_cancel_left_eq, String.toList_inj, Position.text_inj] at places
    rw [places]
  · rintro rfl
    rfl

end ScriptSyntax
