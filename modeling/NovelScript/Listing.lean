import NovelScript.Text.Layout
import NovelScript.Text.Quoted
import NovelScript.Token.Stream

/-!
# Token listings

One line per token: its one-based position, its kind and its quoted text, in columns.
-/

namespace NovelScript.Listing

/-- The kind of a token, with the kind it wraps in parentheses. -/
def kindColumn (token : Token) : String :=
  match token.wrapped with
  | some wrapped => s!"{token.kind.text}({wrapped.text})"
  | none => token.kind.text

def line (source : List Char) (token : Token) : String :=
  Text.padRight 8 token.start.displayOneBased ++ Text.padRight 20 (kindColumn token) ++
    Text.quote (token.value source)

def lines (source : List Char) (stream : TokenStream) (withTrivia : Bool) : List String :=
  (stream.filter fun token => withTrivia || !token.kind.isTrivia).map (line source)

def render (source : List Char) (stream : TokenStream) (withTrivia : Bool) : String :=
  Text.unlines (lines source stream withTrivia)

end NovelScript.Listing
