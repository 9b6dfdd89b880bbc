/-!
# Kinds of tokens

Every token has one kind.  Keywords, operators, punctuation and literals are families of their own;
names, blanks, line ends, comments, spans of python and invalid input stand alone.
-/

namespace NovelScript

/-! ## Keywords -/

inductive Keyword where
  | define | default | label | jump | call | «return» | pass | pause | init | python | «if»
  | elif | «else» | «while» | «for» | «in» | not | and | or | is | menu | «show» | scene | hide
  | «with» | «at» | «as» | behind | onlayer | zorder | image | screen | transform | style
  | translate | play | stop | queue | voice | window | nvl | expression | «from» | «use» | has
  deriving DecidableEq, Repr

namespace Keyword

def all : List Keyword :=
  [
    .define, .default, .label, .jump, .call, .«return», .pass, .pause, .init, .python, .«if»,
    .elif, .«else», .«while», .«for», .«in», .not, .and, .or, .is, .menu, .«show», .scene, .hide,
    .«with», .«at», .«as», .behind, .onlayer, .zorder, .image, .screen, .transform, .style,
    .translate, .play, .stop, .queue, .voice, .window, .nvl, .expression, .«from», .«use», .has]

def text : Keyword → String
  | .define => "define"
  | .default => "default"
  | .label => "label"
  | .jump => "jump"
  | .call => "call"
  | .«return» => "return"
  | .pass => "pass"
  | .pause => "pause"
  | .init => "init"
  | .python => "python"
  | .«if» => "if"
  | .elif => "elif"
  | .«else» => "else"
  | .«while» => "while"
  | .«for» => "for"
  | .«in» => "in"
  | .not => "not"
  | .and => "and"
  | .or => "or"
  | .is => "is"
  | .menu => "menu"
  | .«show» => "show"
  | .scene => "scene"
  | .hide => "hide"
  | .«with» => "with"
  | .«at» => "at"
  | .«as» => "as"
  | .behind => "behind"
  | .onlayer => "onlayer"
  | .zorder => "zorder"
  | .image => "image"
  | .screen => "screen"
  | .transform => "transform"
  | .style => "style"
  | .translate => "translate"
  | .play => "play"
  | .stop => "stop"
  | .queue => "queue"
  | .voice => "voice"
  | .window => "window"
  | .nvl => "nvl"
  | .expression => "expression"
  | .«from» => "from"
  | .«use» => "use"
  | .has => "has"

def ofText? (word : String) : Option Keyword := all.find? (·.text == word)

end Keyword

/-! ## Operators -/

inductive Operator where
  | assign | plusAssign | minusAssign | multiplyAssign | divideAssign | orAssign
  | equals | notEquals | less | lessEqual | greater | greaterEqual
  | plus | minus | multiply | divide | floorDivide | modulo | power
  | bitOr | bitAnd | bitXor | bitNot
  deriving DecidableEq, Repr

namespace Operator

def all : List Operator :=
  [.assign, .plusAssign, .minusAssign, .multiplyAssign, .divideAssign, .orAssign,
    .equals, .notEquals, .less, .lessEqual, .greater, .greaterEqual,
    .plus, .minus, .multiply, .divide, .floorDivide, .modulo, .power,
    .bitOr, .bitAnd, .bitXor, .bitNot]

def text : Operator → String
  | assign => "="
  | plusAssign => "+="
  | minusAssign => "-="
  | multiplyAssign => "*="
  | divideAssign => "/="
  | orAssign => "|="
  | equals => "=="
  | notEquals => "!="
  | less => "<"
  | lessEqual => "<="
  | greater => ">"
  | greaterEqual => ">="
  | plus => "+"
  | minus => "-"
  | multiply => "*"
  | divide => "/"
  | floorDivide => "//"
  | modulo => "%"
  | power => "**"
  | bitOr => "|"
  | bitAnd => "&"
  | bitXor => "^"
  | bitNot => "~"

/-- Operators that store into their left side. -/
def isAssignment : Operator → Bool
  | assign | plusAssign | minusAssign | multiplyAssign | divideAssign | orAssign => true
  | _ => false

def name : Operator → String
  | assign => "Assign"
  | plusAssign => "PlusAssign"
  | minusAssign => "MinusAssign"
  | multiplyAssign => "MultiplyAssign"
  | divideAssign => "DivideAssign"
  | orAssign => "OrAssign"
  | equals => "Equals"
  | notEquals => "NotEquals"
  | less => "Less"
  | lessEqual => "LessEqual"
  | greater => "Greater"
  | greaterEqual => "GreaterEqual"
  | plus => "Plus"
  | minus => "Minus"
  | multiply => "Multiply"
  | divide => "Divide"
  | floorDivide => "FloorDivide"
  | modulo => "Modulo"
  | power => "Power"
  | bitOr => "BitOr"
  | bitAnd => "BitAnd"
  | bitXor => "BitXor"
  | bitNot => "BitNot"

end Operator

/-! ## Punctuation and literals -/

inductive Punctuation where
  | openParen | closeParen | openBracket | closeBracket | openBrace | closeBrace
  | colon | comma | dot | dollar | «at»
  deriving DecidableEq, Repr

namespace Punctuation

def all : List Punctuation :=
  [.openParen, .closeParen, .openBracket, .closeBracket, .openBrace, .closeBrace,
    .colon, .comma, .dot, .dollar, .«at»]

def text : Punctuation → String
  | openParen => "("
  | closeParen => ")"
  | openBracket => "["
  | closeBracket => "]"
  | openBrace => "\x7b"
  | closeBrace => "\x7d"
  | colon => ":"
  | comma => ","
  | dot => "."
  | dollar => "$"
  | «at» => "@"

def name : Punctuation → String
  | openParen => "OpenParen"
  | closeParen => "CloseParen"
  | openBracket => "OpenBracket"
  | closeBracket => "CloseBracket"
  | openBrace => "OpenBrace"
  | closeBrace => "CloseBrace"
  | colon => "Colon"
  | comma => "Comma"
  | dot => "Dot"
  | dollar => "Dollar"
  | «at» => "At"

end Punctuation

inductive LiteralKind where
  | integer | float | string | boolean
  deriving DecidableEq, Repr

namespace LiteralKind

def all : List LiteralKind := [.integer, .float, .string, .boolean]

def text : LiteralKind → String
  | integer => "integer"
  | float => "float"
  | string => "string"
  | boolean => "boolean"

end LiteralKind

/-! ## All kinds -/

inductive Kind where
  | keyword (keyword : Keyword)
  | operator (operator : Operator)
  | punctuation (punctuation : Punctuation)
  | whitespace
  | newline
  | literal (literal : LiteralKind)
  | identifier
  | comment
  | invalid
  | python
  deriving DecidableEq, Repr

namespace Kind

def all : List Kind :=
  Keyword.all.map .keyword ++ Operator.all.map .operator ++ Punctuation.all.map .punctuation ++
    [.whitespace, .newline] ++ LiteralKind.all.map .literal ++
    [.identifier, .comment, .invalid, .python]

def text : Kind → String
  | .keyword word => word.text
  | .operator symbol => symbol.text
  | .punctuation mark => mark.text
  | whitespace => "whitespace"
  | newline => "newline"
  | .literal sort => sort.text
  | identifier => "identifier"
  | comment => "comment"
  | invalid => "invalid"
  | python => "python expression"

/-- Family and member of a kind, as data formats show it. -/
def tag : Kind → String × String
  | .keyword word => ("Keyword", word.text.capitalize)
  | .operator symbol => ("Operator", symbol.name)
  | .punctuation mark => ("Character", mark.name)
  | whitespace => ("Character", "Whitespace")
  | newline => ("Character", "Newline")
  | .literal sort => ("Literal", sort.text.capitalize)
  | identifier => ("Entity", "Identifier")
  | comment => ("Meta", "Comment")
  | invalid => ("Meta", "Invalid")
  | python => ("Meta", "PythonExpression")

def ofTag? (family member : String) : Option Kind := all.find? (·.tag == (family, member))

/-- Kinds that the grammar never sees. -/
def isTrivia : Kind → Bool
  | whitespace | comment => true
  | _ => false

/-- Whether an operator kind is an assignment; `none` for kinds that are no operators. -/
def isAssignment? : Kind → Option Bool
  | .operator symbol => some symbol.isAssignment
  | _ => none

end Kind

end NovelScript
