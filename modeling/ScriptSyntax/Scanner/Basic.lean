import ScriptSyntax.Scanner.Reading
import ScriptSyntax.Token.Basic

/-! The scanner: a place in a source text from which tokens are read on demand. After an error it
stays where it is and can be asked again. -/
namespace ScriptSyntax

/-- How far ahead of its place anything looks: the scanner over characters, the grammar over
tokens. The longest symbols have this many characters. -/
def maxLookahead : Nat := 4

/-- The file name of a text that was given without one. -/
def defaultFile : String := "shell"

structure Scanner where
  file : String
  rest : List Char
  point : Point
  previous : Option Kind
deriving DecidableEq, Inhabited

namespace Scanner

def ofText (source : String) (file : Option String) : Scanner :=
  ⟨file.getD defaultFile, source.toList, .start, none⟩

def position (s : Scanner) : Position := ⟨s.point, s.file⟩

def atEnd (s : Scanner) : Bool := s.rest.isEmpty

/-- The next token. At the end of the text it is the end of input, however often it is asked for. -/
def next (s : Scanner) : Except Error Token × Scanner :=
  let gap := skipGap .outside s.point s.rest
  match gap.unclosed with
  | some opened =>
    (.error ⟨.unterminatedComment, opened, s.file⟩, { s with point := gap.point, rest := gap.rest })
  | none =>
    let reading := read s.previous gap.rest
    let stop := gap.point.advance reading.written
    match reading.outcome with
    | .ok (kind, value) =>
      (.ok ⟨kind, value, gap.point, stop⟩,
        { s with point := stop, rest := reading.rest, previous := some kind })
    | .error fault =>
      (.error ⟨fault, gap.point, s.file⟩, { s with point := stop, rest := reading.rest })

/-- The tokens up to the first error, or through the end of input. Each token but the last takes
a character at least, which bounds their number. -/
def tokensWithin : Nat → Scanner → List Token × Option Error
  | 0, _ => ([], none)
  | n + 1, s =>
    match s.next with
    | (.error e, _) => ([], some e)
    | (.ok t, s') =>
      if t.kind = .eof then ([t], none)
      else
        let (others, failure) := tokensWithin n s'
        (t :: others, failure)

def tokens (s : Scanner) : List Token × Option Error :=
  s.tokensWithin (s.rest.length + 1)

end Scanner

/-- All tokens of a source text, the end of input included. -/
def tokenize (source : String) (file : Option String) : Except Error (List Token) :=
  match (Scanner.ofText source file).tokens with
  | (tokens, none) => .ok tokens
  | (_, some e) => .error e

end ScriptSyntax
