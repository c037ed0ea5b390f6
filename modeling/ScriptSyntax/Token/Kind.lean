/-! The kinds of token, each with its name, its spelling and the groups it belongs to, and how
tightly operators bind. Kinds that carry text of their own (names, literals) and the end of input
have the empty spelling. -/
namespace ScriptSyntax

inductive Kind where
  | eol | eof | comma | colon | direct | atSign | ternary | period
  | deref | totalRef
  | assign | castAssign | equal | castEqual | notEqual | castNotEqual
  | var | realVal | intVal | strVal | trueKw | falseKw
  | add | subtract | multiply | divide | mod | floor | exp | round | increment | decrement
  | point
  | lAnd | lOr | lNot | lXor | bAnd | bOr | bNot | bXor
  | lessThan | greaterThan | lessThanEq | greaterThanEq | shiftRight | shiftLeft
  | addEq | subtractEq | multiplyEq | divideEq | modEq | floorEq | roundEq | expEq | lAndEq
  | lOrEq | lXorEq | bAndEq | bOrEq | bXorEq | shiftRightEq | shiftLeftEq
  | nullCoalesce | pipeline | optChain
  | parOpen | parClose
  | arrOpen | lArrOpen | arrClose | scopeOpen | scopeClose | setOpen | setClose | undirOpen
  | undirClose | dirOpen | dirClose | dirEdge | dir2Edge
  | arrType | lArrType | undirType | dirType | mapType | setType | strBound
  | intKw | realKw | charKw | boolKw | strKw | nullKw | anyKw | atomKw | containerKw
  | ifKw | elseKw | switchKw | caseKw | defaultKw | selectKw | tryKw | catchKw
  | printKw | sizeKw | hashKw | loopKw
  | funcKw | classKw | enumKw | interfaceKw | structKw | extendKw
  | superKw | thisKw
  | staticKw | publicKw | privateKw | propertyKw | abstractKw | moduleKw | finalKw
  | breakKw | continueKw | passKw | deferKw | returnKw
deriving DecidableEq, Inhabited

/-- What a kind may be classed as. A kind belongs to any number of groups. -/
inductive Group where
  | literal | reserved | operator | modifier | type | construct | directive | container
  | assignment
deriving DecidableEq

/-- Whether two lists hold the same groups. -/
def Group.sameSet (as bs : List Group) : Bool :=
  as.all bs.contains && bs.all as.contains

namespace Kind

structure Entry where
  name : String
  spelling : String
  groups : List Group

def entry : Kind → Entry
  | eol => ⟨"EOL", ";", []⟩
  | eof => ⟨"EOF", "", []⟩
  | comma => ⟨"COMMA", ",", []⟩
  | colon => ⟨"COLON", ":", []⟩
  | direct => ⟨"DIRECT", "=>", []⟩
  | atSign => ⟨"ANNOTATION", "@", []⟩
  | ternary => ⟨"TERNARY", "?", []⟩
  | period => ⟨"PERIOD", ".", []⟩
  | deref => ⟨"DEREF", "&", [.operator]⟩
  | totalRef => ⟨"TOTAL_REF", "#", [.operator]⟩
  | assign => ⟨"ASSIGN", "=", []⟩
  | castAssign => ⟨"CAST_ASSIGN", ":=", []⟩
  | equal => ⟨"EQUAL", "==", [.operator]⟩
  | castEqual => ⟨"CAST_EQUAL", ":==", [.operator]⟩
  | notEqual => ⟨"NOT_EQUAL", "!=", [.operator]⟩
  | castNotEqual => ⟨"CAST_NOT_EQUAL", ":!=", [.operator]⟩
  | var => ⟨"VAR", "", []⟩
  | realVal => ⟨"REAL_VAL", "", [.literal]⟩
  | intVal => ⟨"INT_VAL", "", [.literal]⟩
  | strVal => ⟨"STR_VAL", "", [.literal]⟩
  | trueKw => ⟨"TRUE", "true", [.reserved, .literal]⟩
  | falseKw => ⟨"FALSE", "false", [.reserved, .literal]⟩
  | add => ⟨"ADD", "+", [.operator]⟩
  | subtract => ⟨"SUBTRACT", "-", [.operator]⟩
  | multiply => ⟨"MULTIPLY", "*", [.operator]⟩
  | divide => ⟨"DIVIDE", "/", [.operator]⟩
  | mod => ⟨"MOD", "%", [.operator]⟩
  | floor => ⟨"FLOOR", "-/", [.operator]⟩
  | exp => ⟨"EXP", "**", [.operator]⟩
  | round => ⟨"ROUND", "`", [.operator]⟩
  | increment => ⟨"INCREMENT", "++", [.operator]⟩
  | decrement => ⟨"DECREMENT", "--", [.operator]⟩
  | point => ⟨"POINT", "*", [.operator]⟩
  | lAnd => ⟨"L_AND", "&&", [.operator]⟩
  | lOr => ⟨"L_OR", "||", [.operator]⟩
  | lNot => ⟨"L_NOT", "!", [.operator]⟩
  | lXor => ⟨"L_XOR", "^^", [.operator]⟩
  | bAnd => ⟨"B_AND", "&", [.operator]⟩
  | bOr => ⟨"B_OR", "|", [.operator]⟩
  | bNot => ⟨"B_NOT", "~", [.operator]⟩
  | bXor => ⟨"B_XOR", "^", [.operator]⟩
  | lessThan => ⟨"LESS_THAN", "<", [.operator]⟩
  | greaterThan => ⟨"GREATER_THAN", ">", [.operator]⟩
  | lessThanEq => ⟨"LESS_THAN_EQ", "<=", [.operator]⟩
  | greaterThanEq => ⟨"GREATER_THAN_EQ", ">=", [.operator]⟩
  | shiftRight => ⟨"SHIFT_RIGHT", ">>", [.operator]⟩
  | shiftLeft => ⟨"SHIFT_LEFT", "<<", [.operator]⟩
  | addEq => ⟨"ADD_EQ", "+=", [.operator, .assignment]⟩
  | subtractEq => ⟨"SUBTRACT_EQ", "-=", [.operator, .assignment]⟩
  | multiplyEq => ⟨"MULTIPLY_EQ", "*=", [.operator, .assignment]⟩
  | divideEq => ⟨"DIVIDE_EQ", "/=", [.operator, .assignment]⟩
  | modEq => ⟨"MOD_EQ", "%=", [.operator, .assignment]⟩
  | floorEq => ⟨"FLOOR_EQ", "-/=", [.operator, .assignment]⟩
  | roundEq => ⟨"ROUND_EQ", "`=", [.operator, .assignment]⟩
  | expEq => ⟨"EXP_EQ", "**=", [.operator, .assignment]⟩
  | lAndEq => ⟨"L_AND_EQ", "&&=", [.operator, .assignment]⟩
  | lOrEq => ⟨"L_OR_EQ", "||=", [.operator, .assignment]⟩
  | lXorEq => ⟨"L_XOR_EQ", "^^=", [.operator, .assignment]⟩
  | bAndEq => ⟨"B_AND_EQ", "&=", [.operator, .assignment]⟩
  | bOrEq => ⟨"B_OR_EQ", "|=", [.operator, .assignment]⟩
  | bXorEq => ⟨"B_XOR_EQ", "^=", [.operator, .assignment]⟩
  | shiftRightEq => ⟨"SHIFT_RIGHT_EQ", ">>=", [.operator, .assignment]⟩
  | shiftLeftEq => ⟨"SHIFT_LEFT_EQ", "<<=", [.operator, .assignment]⟩
  | nullCoalesce => ⟨"NULL_COALESCE", "??", [.operator]⟩
  | pipeline => ⟨"PIPELINE", "|>", [.operator]⟩
  | optChain => ⟨"OPT_CHAIN", "?.", []⟩
  | parOpen => ⟨"PAR_OPEN", "(", []⟩
  | parClose => ⟨"PAR_CLOSE", ")", []⟩
  | arrOpen => ⟨"ARR_OPEN", "[", [.container]⟩
  | lArrOpen => ⟨"L_ARR_OPEN", "-[", [.container]⟩
  | arrClose => ⟨"ARR_CLOSE", "]", [.container]⟩
  | scopeOpen => ⟨"SCOPE_OPEN", "\x7b", [.container]⟩
  | scopeClose => ⟨"SCOPE_CLOSE", "\x7d", [.container]⟩
  | setOpen => ⟨"SET_OPEN", "\x7b<", [.container]⟩
  | setClose => ⟨"SET_CLOSE", "<\x7d", [.container]⟩
  | undirOpen => ⟨"UNDIR_OPEN", "*-", [.container, .operator]⟩
  | undirClose => ⟨"UNDIR_CLOSE", "-*", [.container, .operator]⟩
  | dirOpen => ⟨"DIR_OPEN", "*->", [.container]⟩
  | dirClose => ⟨"DIR_CLOSE", "<-*", [.container]⟩
  | dirEdge => ⟨"DIR_EDGE", "->", [.operator]⟩
  | dir2Edge => ⟨"DIR_2_EDGE", "<->", [.operator]⟩
  | arrType => ⟨"ARR_TYPE", "[]", [.container, .type]⟩
  | lArrType => ⟨"L_ARR_TYPE", "-[]", [.container, .type]⟩
  | undirType => ⟨"UNDIR_TYPE", "*-*", [.container, .type]⟩
  | dirType => ⟨"DIR_TYPE", "*->*", [.container, .type]⟩
  | mapType => ⟨"MAP_TYPE", "\x7b\x7d", [.container, .type]⟩
  | setType => ⟨"SET_TYPE", "\x7b><\x7d", [.container, .type]⟩
  | strBound => ⟨"STR_BOUND", "", []⟩
  | intKw => ⟨"INT", "int", [.reserved, .type]⟩
  | realKw => ⟨"REAL", "real", [.reserved, .type]⟩
  | charKw => ⟨"CHAR", "char", [.reserved, .type]⟩
  | boolKw => ⟨"BOOL", "bool", [.reserved, .type]⟩
  | strKw => ⟨"STR", "str", [.reserved, .type]⟩
  | nullKw => ⟨"NULL", "null", [.reserved, .type, .literal]⟩
  | anyKw => ⟨"ANY", "any", [.reserved, .type]⟩
  | atomKw => ⟨"ATOM", "atom", [.reserved, .type]⟩
  | containerKw => ⟨"CONTAINER", "contain", [.reserved, .type]⟩
  | ifKw => ⟨"IF", "if", [.reserved, .directive]⟩
  | elseKw => ⟨"ELSE", "else", [.reserved, .directive]⟩
  | switchKw => ⟨"SWITCH", "switch", [.reserved, .directive]⟩
  | caseKw => ⟨"CASE", "case", [.reserved, .directive]⟩
  | defaultKw => ⟨"DEFAULT", "default", [.reserved, .directive]⟩
  | selectKw => ⟨"SELECT", "select", [.reserved, .directive]⟩
  | tryKw => ⟨"TRY", "try", [.reserved, .directive]⟩
  | catchKw => ⟨"CATCH", "catch", [.reserved, .directive]⟩
  | printKw => ⟨"PRINT", "print", [.reserved]⟩
  | sizeKw => ⟨"SIZE", "size", [.reserved]⟩
  | hashKw => ⟨"HASH", "hash", [.reserved]⟩
  | loopKw => ⟨"LOOP", "loop", [.reserved, .directive]⟩
  | funcKw => ⟨"FUNC", "func", [.reserved, .construct, .type]⟩
  | classKw => ⟨"CLASS", "class", [.reserved, .construct, .type]⟩
  | enumKw => ⟨"ENUM", "enum", [.reserved, .construct, .type]⟩
  | interfaceKw => ⟨"INTERFACE", "interface", [.reserved, .construct, .type]⟩
  | structKw => ⟨"STRUCT", "struct", [.reserved, .construct, .type]⟩
  | extendKw => ⟨"EXTEND", "extend", [.reserved, .construct]⟩
  | superKw => ⟨"SUPER", "super", [.reserved]⟩
  | thisKw => ⟨"THIS", "this", [.reserved]⟩
  | staticKw => ⟨"STATIC", "static", [.reserved, .modifier]⟩
  | publicKw => ⟨"PUBLIC", "public", [.reserved, .modifier]⟩
  | privateKw => ⟨"PRIVATE", "private", [.reserved, .modifier]⟩
  | propertyKw => ⟨"PROPERTY", "property", [.reserved, .modifier]⟩
  | abstractKw => ⟨"ABSTRACT", "abstract", [.reserved, .modifier]⟩
  | moduleKw => ⟨"MODULE", "module", [.reserved, .modifier]⟩
  | finalKw => ⟨"FINAL", "final", [.reserved, .modifier]⟩
  | breakKw => ⟨"BREAK", "break", [.reserved]⟩
  | continueKw => ⟨"CONTINUE", "continue", [.reserved]⟩
  | passKw => ⟨"PASS", "pass", [.reserved]⟩
  | deferKw => ⟨"DEFER", "defer", [.reserved]⟩
  | returnKw => ⟨"RETURN", "return", [.reserved]⟩

/-- Every kind, in catalog order. -/
def all : List Kind :=
  [eol, eof, comma, colon, direct, atSign, ternary, period, deref, totalRef, assign,
   castAssign, equal, castEqual, notEqual, castNotEqual, var, realVal, intVal, strVal, trueKw,
   falseKw, add, subtract, multiply, divide, mod, floor, exp, round, increment, decrement, point,
   lAnd, lOr, lNot, lXor, bAnd, bOr, bNot, bXor, lessThan, greaterThan, lessThanEq, greaterThanEq,
   shiftRight, shiftLeft, addEq, subtractEq, multiplyEq, divideEq, modEq, floorEq, roundEq, expEq,
   lAndEq, lOrEq, lXorEq, bAndEq, bOrEq, bXorEq, shiftRightEq, shiftLeftEq, nullCoalesce,
   pipeline, optChain, parOpen, parClose, arrOpen, lArrOpen, arrClose, scopeOpen, scopeClose,
   setOpen, setClose, undirOpen, undirClose, dirOpen, dirClose, dirEdge, dir2Edge, arrType,
   lArrType, undirType, dirType, mapType, setType, strBound, intKw, realKw, charKw, boolKw, strKw,
   nullKw, anyKw, atomKw, containerKw, ifKw, elseKw, switchKw, caseKw, defaultKw, selectKw, tryKw,
   catchKw, printKw, sizeKw, hashKw, loopKw, funcKw, classKw, enumKw, interfaceKw, structKw,
   extendKw, superKw, thisKw, staticKw, publicKw, privateKw, propertyKw, abstractKw, moduleKw,
   finalKw, breakKw, continueKw, passKw, deferKw, returnKw]

def name (k : Kind) : String := k.entry.name

def spelling (k : Kind) : String := k.entry.spelling

def groups (k : Kind) : List Group := k.entry.groups

def belongs (k : Kind) (g : Group) : Bool := k.groups.contains g

def belongsToAll (k : Kind) (gs : List Group) : Bool := gs.all k.belongs

def isLiteral (k : Kind) : Bool := k.belongs .literal

def isReserved (k : Kind) : Bool := k.belongs .reserved

def isOperator (k : Kind) : Bool := k.belongs .operator

def isModifier (k : Kind) : Bool := k.belongs .modifier

def isType (k : Kind) : Bool := k.belongs .type

def isConstruct (k : Kind) : Bool := k.belongs .construct

def isDirective (k : Kind) : Bool := k.belongs .directive

def isContainer (k : Kind) : Bool := k.belongs .container

def isAssignment (k : Kind) : Bool := k.belongs .assignment

/-- Kinds that only the grammar gives to a token, from where the token stands. -/
def isSynthetic : Kind → Bool
  | deref | point | strBound => true
  | _ => false

/-- Kinds written with signs: the spelling is neither empty nor a reserved word, and a token
read from text can have the kind. -/
def isSymbol (k : Kind) : Bool :=
  k.spelling ≠ "" && !k.isReserved && !k.isSynthetic

/-- The ranks of precedence, the tightest first. -/
def ranks : List (List Kind) :=
  [[arrType, parOpen, period, optChain],
   [point],
   [increment, decrement],
   [lNot, bNot],
   [round, exp],
   [multiply, divide, mod, floor],
   [add, subtract],
   [shiftLeft, shiftRight],
   [lessThan, greaterThan, lessThanEq, greaterThanEq],
   [equal, notEqual, castEqual, castNotEqual],
   [bAnd],
   [bOr],
   [bXor],
   [lAnd],
   [lOr],
   [lXor],
   [ternary],
   [nullCoalesce],
   [pipeline],
   [addEq, subtractEq, multiplyEq, divideEq, modEq, floorEq, roundEq, expEq, lAndEq, lOrEq,
    lXorEq, bAndEq, bOrEq, bXorEq, shiftRightEq, shiftLeftEq]]

/-- The rank of an operator: the lower binds the tighter. -/
def precedence (k : Kind) : Option Nat :=
  ranks.findIdx? (·.contains k)

/-- Kinds that join two operands. -/
def isBinaryOperator (k : Kind) : Bool :=
  k.isAssignment ||
    [exp, multiply, divide, mod, floor, add, subtract, shiftLeft, shiftRight, lessThan, greaterThan,
      lessThanEq, greaterThanEq, equal, notEqual, castEqual, castNotEqual, bAnd, bOr, bXor, lAnd,
      lOr, lXor, nullCoalesce, pipeline].contains k

end Kind
end ScriptSyntax
