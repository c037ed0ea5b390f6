import ScriptSyntax.Fault
import ScriptSyntax.Scanner.Spelling
import ScriptSyntax.Text.Character

/-! What is read off the front of a text: the gap before a token, then the token. A gap is made of
blanks, line comments that run through the next line feed, and block comments that run through the
next closing mark. -/
namespace ScriptSyntax.Scanner

/-- What the characters of a gap are inside of. -/
inductive GapMode where
  | outside
  | line
  | block (opened : Point)
deriving DecidableEq

/-- Where a gap ends, what follows it, and the start of a comment left open in it. -/
structure GapEnd where
  point : Point
  rest : List Char
  unclosed : Option Point
deriving DecidableEq

def skipGap : GapMode → Point → List Char → GapEnd
  | .outside, p, '/' :: '/' :: rest => skipGap .line ((p.after '/').after '/') rest
  | .outside, p, '/' :: '*' :: rest => skipGap (.block p) ((p.after '/').after '*') rest
  | .outside, p, c :: rest =>
    if Text.isBlank c then skipGap .outside (p.after c) rest else ⟨p, c :: rest, none⟩
  | .line, p, c :: rest => skipGap (if c = '\n' then .outside else .line) (p.after c) rest
  | .block _, p, '*' :: '/' :: rest => skipGap .outside ((p.after '*').after '/') rest
  | .block opened, p, c :: rest => skipGap (.block opened) (p.after c) rest
  | .block opened, p, [] => ⟨p, [], some opened⟩
  | _, p, [] => ⟨p, [], none⟩

/-- The outcome of reading one token, the characters read for it and those left. -/
structure Reading where
  outcome : Except Fault (Kind × String)
  written : List Char
  rest : List Char

def Reading.token (kind : Kind) (value : String) (written rest : List Char) : Reading :=
  ⟨.ok (kind, value), written, rest⟩

def Reading.stuck (fault : Fault) (written rest : List Char) : Reading :=
  ⟨.error fault, written, rest⟩

/-- A string runs to the next mark equal to its first and holds no escapes. -/
def readString (mark : Char) (cs : List Char) : Reading :=
  let body := cs.takeWhile (· != mark)
  match cs.dropWhile (· != mark) with
  | [] => .stuck (.unterminatedString mark) (mark :: body) []
  | close :: rest => .token .strVal (String.ofList body) (mark :: (body ++ [close])) rest

/-- A fraction is a point right before a digit, with the digits after it. -/
def readFraction : List Char → Option (List Char × List Char)
  | '.' :: rest =>
    if (rest.head?.any Char.isDigit) then
      some ('.' :: rest.takeWhile Char.isDigit, rest.dropWhile Char.isDigit)
    else none
  | _ => none

def splitSign : List Char → List Char × List Char
  | '-' :: rest => (['-'], rest)
  | cs => ([], cs)

/-- An optional sign, digits, and a fraction if one follows. -/
def readNumber (cs : List Char) : Reading :=
  let (sign, unsigned) := splitSign cs
  let whole := sign ++ unsigned.takeWhile Char.isDigit
  let rest := unsigned.dropWhile Char.isDigit
  match readFraction rest with
  | some (fraction, rest) =>
    .token .realVal (String.ofList (whole ++ fraction)) (whole ++ fraction) rest
  | none => .token .intVal (String.ofList whole) whole rest

def startsWord (c : Char) : Bool :=
  Text.isLetter c || c = '_'

def continuesWord (c : Char) : Bool :=
  Text.isLetter c || Text.isNumeral c || c = '_'

def readWord (cs : List Char) : Reading :=
  let word := cs.takeWhile continuesWord
  let kind := Kind.ofWord word
  let value := if kind = .var then String.ofList word else kind.spelling
  .token kind value word (cs.dropWhile continuesWord)

/-- Whether a token of this kind can be the last of an operand. A minus right after it is an
operator even when a digit follows. -/
def endsOperand (k : Kind) : Bool :=
  k.isLiteral ||
    [.var, .thisKw, .superKw, .printKw, .sizeKw, .hashKw, .parClose, .arrClose, .scopeClose,
      .setClose, .undirClose, .dirClose, .arrType, .lArrType, .mapType, .setType, .undirType,
      .dirType, .increment, .decrement, .totalRef].contains k

/-- Whether a number begins here. A point or a minus begins one only right before a digit. -/
def startsNumber (previous : Option Kind) : List Char → Bool
  | [] => false
  | c :: rest =>
    c.isDigit ||
      rest.head?.any Char.isDigit &&
        (c = '.' || c = '-' && !previous.any endsOperand)

def read (previous : Option Kind) : List Char → Reading
  | [] => .token .eof "" [] []
  | c :: rest =>
    if c = '"' ∨ c = '\x27' then readString c rest
    else if startsNumber previous (c :: rest) then readNumber (c :: rest)
    else if startsWord c then readWord (c :: rest)
    else match symbolAt? (c :: rest) with
      | some kind =>
        let width := kind.spelling.length
        .token kind kind.spelling ((c :: rest).take width) ((c :: rest).drop width)
      | none => .stuck (.unrecognisedCharacter c) [] (c :: rest)

end ScriptSyntax.Scanner
