/-!
# Quotations

A quotation opens with a quote of one or three characters and runs to the first unescaped
occurrence of the same quote.  A backslash that is not itself escaped escapes the next character,
whatever it is.
-/

namespace NovelScript.Quotation

def backquote : Char := '\x60'

/-- The quote in front of a text that starts with `first`, for quotes that may be tripled. -/
def opening? (first : Char) (rest : List Char) : Option (List Char) :=
  if first = '"' ∨ first = '\'' then
    if [first, first].isPrefixOf rest then some [first, first, first] else some [first]
  else none

/-- Number of characters up to and including the first unescaped `quote`. -/
def closing? (quote : List Char) : List Char → Option Nat
  | [] => none
  | character :: rest =>
      if character = '\\' then
        match rest with
        | [] => none
        | _ :: rest => (closing? quote rest).map (· + 2)
      else if quote.isPrefixOf (character :: rest) then some quote.length
      else (closing? quote rest).map (· + 1)

theorem closing?_le_length {quote text : List Char} {count : Nat}
    (closed : closing? quote text = some count) : count ≤ text.length := by
  fun_induction closing? quote text generalizing count with
  | case1 => simp at closed
  | case2 => simp at closed
  | case3 _ rest ih =>
      obtain ⟨inner, found, rfl⟩ := Option.map_eq_some_iff.1 closed
      have := ih found
      simp; omega
  | case4 character rest plain quoted =>
      have := (List.isPrefixOf_iff_prefix.1 quoted).length_le
      simp at closed this ⊢
      omega
  | case5 character rest plain open_ ih =>
      obtain ⟨inner, found, rfl⟩ := Option.map_eq_some_iff.1 closed
      have := ih found
      simp; omega

/-- Characters behind the first one that belong to a quotation starting with `first`; the flag
tells whether it was closed. -/
def extent (quote : List Char) (rest : List Char) : Nat × Bool :=
  let body := rest.drop (quote.length - 1)
  match closing? quote body with
  | some count => (quote.length - 1 + count, true)
  | none => (rest.length, false)

end NovelScript.Quotation
