import ScriptSyntax.Fault

/-! The lines of a text, and reports of an error beside the line it lies on. -/
namespace ScriptSyntax
namespace Text

/-- A line feed ends a line, a carriage return right before it belongs to the line's end, and a text
that ends in a line feed has no further empty line. -/
def lines : List Char → List (List Char)
  | [] => []
  | '\n' :: rest => [] :: lines rest
  | '\r' :: '\n' :: rest => [] :: lines rest
  | c :: rest =>
    match lines rest with
    | [] => [[c]]
    | line :: others => (c :: line) :: others

/-- Line `n` of a text, the first being line one. -/
def line? (cs : List Char) : Nat → Option (List Char)
  | 0 => none
  | n + 1 => (lines cs)[n]?

end Text

namespace Diagnostic

open Text (line? isBlank)

/-- Fills `s` up to `width` characters with copies of `c` before it. -/
def padLeft (width : Nat) (c : Char) (s : String) : String :=
  String.ofList (List.replicate (width - s.length) c) ++ s

def dropTrailingBlanks (cs : List Char) : List Char :=
  (cs.reverse.dropWhile isBlank).reverse

def header (e : Error) : String :=
  "Error: " ++ e.fault.name ++ (e.fault.tip.elim "" fun tip => " (" ++ tip ++ ")") ++ "\n" ++
    "-> " ++ e.position.text ++ "\n"

/-- The line without its leading spaces, under a gutter with its number, and a caret below
the failing column. -/
def excerpt (point : Point) (line : List Char) : String :=
  let number := toString point.line
  let gutter := padLeft (number.length + 2) ' ' "|"
  let text := line.dropWhile (· = ' ')
  let removed := line.length - text.length
  gutter ++ "\n" ++
    number ++ " | " ++ String.ofList (dropTrailingBlanks text) ++ "\n" ++
    gutter ++ " " ++ padLeft (point.column - removed) '-' "^" ++ "\n"

def render (e : Error) (source : String) : String :=
  header e ++ (line? source.toList e.position.point.line).elim "" (excerpt e.position.point)

end Diagnostic
end ScriptSyntax
