import ScriptSyntax.Token.Kind
import ScriptSyntax.Trie

/-! Kinds with a fixed spelling: the symbol that a text begins with, from its first character and
the few after it, and the reserved words. -/
namespace ScriptSyntax
namespace Scanner

/-- The symbols with a first character, each with what has to come after that character. A text is
read as the first of them that it goes on like. -/
def branches : Char → List (String × Kind)
  | '-' => [("*", .undirClose), ("-", .decrement), ("[]", .lArrType), ("[", .lArrOpen),
      (">", .dirEdge), ("/=", .floorEq), ("/", .floor), ("=", .subtractEq), ("", .subtract)]
  | '<' => [("<=", .shiftLeftEq), ("<", .shiftLeft), ("=", .lessThanEq), ("\x7d", .setClose),
      ("-*", .dirClose), ("->", .dir2Edge), ("", .lessThan)]
  | '*' => [("*=", .expEq), ("*", .exp), ("->*", .dirType), ("->", .dirOpen), ("-*", .undirType),
      ("-", .undirOpen), ("=", .multiplyEq), ("", .multiply)]
  | '\x7b' => [("\x7d", .mapType), ("<", .setOpen), ("><\x7d", .setType), ("", .scopeOpen)]
  | '[' => [("]", .arrType), ("", .arrOpen)]
  | '=' => [("=", .equal), (">", .direct), ("", .assign)]
  | ':' => [("==", .castEqual), ("=", .castAssign), ("!=", .castNotEqual), ("", .colon)]
  | '&' => [("&=", .lAndEq), ("&", .lAnd), ("=", .bAndEq), ("", .bAnd)]
  | '|' => [("|=", .lOrEq), ("|", .lOr), (">", .pipeline), ("=", .bOrEq), ("", .bOr)]
  | '^' => [("^=", .lXorEq), ("^", .lXor), ("=", .bXorEq), ("", .bXor)]
  | '!' => [("=", .notEqual), ("", .lNot)]
  | '>' => [(">=", .shiftRightEq), (">", .shiftRight), ("=", .greaterThanEq), ("", .greaterThan)]
  | '+' => [("+", .increment), ("=", .addEq), ("", .add)]
  | '%' => [("=", .modEq), ("", .mod)]
  | '/' => [("=", .divideEq), ("", .divide)]
  | '\x60' => [("=", .roundEq), ("", .round)]
  | '?' => [("?", .nullCoalesce), (".", .optChain), ("", .ternary)]
  | '.' => [("", .period)]
  | ',' => [("", .comma)]
  | ';' => [("", .eol)]
  | ']' => [("", .arrClose)]
  | '\x7d' => [("", .scopeClose)]
  | '(' => [("", .parOpen)]
  | ')' => [("", .parClose)]
  | '~' => [("", .bNot)]
  | '@' => [("", .atSign)]
  | '#' => [("", .totalRef)]
  | _ => []

def symbolAt? : List Char → Option Kind
  | [] => none
  | c :: rest => ((branches c).find? fun branch => branch.1.toList.isPrefixOf rest).map (·.2)

end Scanner

namespace Kind

/-- The reserved kinds under their spellings. -/
def reserved : Trie Kind :=
  .ofList ((all.filter isReserved).map fun k => (k.spelling.toList, k))

/-- The kind of a scanned word: a word that is not reserved is a name. -/
def ofWord (word : List Char) : Kind :=
  (reserved.find? word).getD var

end Kind
end ScriptSyntax
