import NovelScript.Token.Basic

/-!
# Token readers

A reader goes forward through a list of tokens and passes over the kinds that are hidden at the
time.  The first of its remaining tokens is always the next visible one.
-/

namespace NovelScript

structure TokenReader where
  hidden : List Kind
  /-- What is left to read; a visible token stands first. -/
  rest : List Token
  deriving DecidableEq, Repr

namespace TokenReader

def settle (hidden : List Kind) (tokens : List Token) : List Token :=
  tokens.dropWhile fun token => hidden.contains token.kind

/-- A reader of all tokens that hides none. -/
def ofList (tokens : List Token) : TokenReader := ⟨[], tokens⟩

/-- Hide these kinds from now on, in place of those hidden before. -/
def hide (reader : TokenReader) (kinds : List Kind) : TokenReader :=
  ⟨kinds, settle kinds reader.rest⟩

def peek? (reader : TokenReader) : Option Token := reader.rest.head?

def hasNext (reader : TokenReader) : Bool := !reader.rest.isEmpty

def advance (reader : TokenReader) : Option Token × TokenReader :=
  match reader.rest with
  | [] => (none, reader)
  | token :: rest => (some token, { reader with rest := settle reader.hidden rest })

def remaining (reader : TokenReader) : List Token :=
  match reader.rest with
  | [] => []
  | token :: rest => token :: rest.filter fun next => !reader.hidden.contains next.kind

end TokenReader

end NovelScript
