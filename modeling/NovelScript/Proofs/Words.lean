import Mathlib.Computability.Language
import NovelScript.Token.Basic

/-!
# The language of statement lines

What a statement line may look like, as a language over visible tokens.  A string or a span of
python may be left unclosed; then it is an invalid token that wraps its kind.  Keywords are names
except where the grammar asks for them.  Parentheses nest no deeper than the levels that are left.
-/

namespace NovelScript

open Computability

namespace Words

/-! ## Single tokens -/

def one (accepts : Token → Prop) : Language Token := {word | ∃ token, word = [token] ∧ accepts token}

def kind (kind : Kind) : Language Token := one (·.kind = kind)

def keyword (keyword : Keyword) : Language Token := kind (.keyword keyword)

def mark (mark : Punctuation) : Language Token := kind (.punctuation mark)

def operator (operator : Operator) : Language Token := kind (.operator operator)

def IsName (token : Token) : Prop := token.kind = .identifier ∨ ∃ word, token.kind = .keyword word

def IsLiteral (token : Token) : Prop :=
  (∃ literal, token.kind = .literal literal) ∨
    token.kind = .invalid ∧ token.wrapped = some (.literal .string)

def IsPython (token : Token) : Prop :=
  token.kind = .python ∨ token.kind = .invalid ∧ token.wrapped = some .python

def name : Language Token := one IsName

def literal : Language Token := one IsLiteral

def python : Language Token := one IsPython

/-! ## Expressions -/

def optional (words : Language Token) : Language Token := 1 + words

def reference : Language Token := kind .identifier * (mark .dot * name)∗

/-- An expression in parentheses, where so many levels are left; on the last level there is none. -/
def nested : Nat → Language Token
  | 0 => 0
  | levels + 1 => mark .openParen * (literal + nested levels + reference) * mark .closeParen

def expression (levels : Nat) : Language Token := literal + nested levels + reference

def separated (item : Language Token) : Language Token := item * (mark .comma * item)∗

/-- A list in parentheses, which may be empty or absent. -/
def parenthesized (item : Language Token) : Language Token :=
  optional (mark .openParen * optional (separated item) * mark .closeParen)

/-! ## Statement lines -/

def binding (word : Keyword) : Language Token := keyword word * optional (kind (.literal .integer))

def define : Language Token :=
  binding .define * reference * optional (mark .openBracket * python * mark .closeBracket) *
    (operator .assign + operator .plusAssign + operator .orAssign) * python

def defaultValue : Language Token := binding .default * reference * operator .assign * python

def parameter (levels : Nat) : Language Token :=
  kind .identifier * optional (operator .assign * expression levels)

def label (levels : Nat) : Language Token :=
  keyword .label * name * parenthesized (parameter levels) * mark .colon

def nameExcept (words : List Keyword) : Language Token :=
  one fun token => IsName token ∧ ∀ word ∈ words, token.kind ≠ .keyword word

def jump : Language Token :=
  keyword .jump * (keyword .expression * python + nameExcept [.expression])

/-- Anything up to the end of the line. -/
def anything : Language Token := (one (·.kind ≠ .newline))∗

def call (levels : Nat) : Language Token :=
  keyword .call *
    (keyword .expression * python + keyword .screen * name * anything +
      nameExcept [.expression, .screen] * parenthesized (expression levels) *
        optional (keyword .«from» * name))

def «return» (levels : Nat) : Language Token := keyword .«return» * optional (expression levels)

def pass : Language Token := keyword .pass

def pause (levels : Nat) : Language Token := keyword .pause * optional (expression levels)

def pythonLine : Language Token := mark .dollar * python

/-- Any statement line, where so many levels are left for parentheses. -/
def statement (levels : Nat) : Language Token :=
  define + defaultValue + label levels + jump + call levels + «return» levels + pass +
    pause levels + pythonLine

end Words

end NovelScript
