import NovelScript.Toml.Datetime
import NovelScript.Toml.Table

/-!
# Documents of settings

A document is a sequence of lines: blank, a table header, or a key with its value.  Values go over
several lines inside brackets.
-/

namespace NovelScript.Toml

/-! ## Values -/

def elementStep (element : Reader Value) (before : List Value) (text : List Char) :
    Option (Progress (List Value)) := do
  match ← skipSpace text with
  | ']' :: rest => some (.done before rest)
  | text =>
      let (value, rest) ← element text
      match ← skipSpace rest with
      | ',' :: rest => some (.more (before ++ [value]) rest)
      | ']' :: rest => some (.done (before ++ [value]) rest)
      | _ => none

def pair (value : Reader Value) : Reader (List String × Value) := fun text => do
  let (names, rest) ← key text
  match rest with
  | '=' :: rest =>
      let (value, rest) ← value (skipBlanks rest)
      some ((names, value), rest)
  | _ => none

def pairStep (value : Reader Value) (before : Entries) (text : List Char) :
    Option (Progress Entries) := do
  let ((names, value), rest) ← pair value text
  let entries ← insert value true names before
  match skipBlanks rest with
  | ',' :: rest => some (.more entries rest)
  | '\x7d' :: rest => some (.done entries rest)
  | _ => none

def inlineTable (value : Reader Value) : Reader Value := fun text =>
  match skipBlanks text with
  | '\x7d' :: rest => some (.table [], rest)
  | text => do
      let (entries, rest) ← repeated (pairStep value) [] text
      some (.table (valuesOf entries), rest)

def scalar : Reader Value := fun text =>
  match text with
  | '"' :: _ | '\'' :: _ => (string text).map fun (content, rest) => (.text content, rest)
  | 't' :: 'r' :: 'u' :: 'e' :: rest => some (.bool true, rest)
  | 'f' :: 'a' :: 'l' :: 's' :: 'e' :: rest => some (.bool false, rest)
  | _ => numberOrDatetime text

/-- A value with so many levels of brackets and braces left for it. -/
def value : Nat → Reader Value
  | 0, text => scalar text
  | levels + 1, text =>
      match text with
      | '[' :: rest =>
          (repeated (elementStep (value levels)) [] rest).map fun (values, rest) =>
            (.list values, rest)
      | '\x7b' :: rest => inlineTable (value levels) rest
      | _ => scalar text

/-! ## Lines -/

structure Draft where
  root : Entries := []
  /-- The header that the next keys stand under. -/
  path : List String := []
  deriving Repr

/-- Change the table that holds a name, and go on below it. -/
def Draft.enter (draft : Draft) (change : String → Entries → Option Entries)
    (names : List String) : Option Draft := do
  let name ← names.getLast?
  let root ← within (change name) names.dropLast draft.root
  some ⟨root, names⟩

def Draft.insert (draft : Draft) (names : List String) (value : Value) : Option Draft := do
  let root ← within (Toml.insert value true names) draft.path draft.root
  some { draft with root }

def header (closing : Nat) : Reader (List String) := fun text => do
  let (names, rest) ← key text
  if rest.take closing = List.replicate closing ']' then some (names, rest.drop closing)
  else none

def lineStep (draft : Draft) (text : List Char) : Option (Progress Draft) := do
  match skipBlanks text with
  | [] => some (.done draft [])
  | '\n' :: rest => some (.more draft rest)
  | '#' :: rest => some (.more draft (← endLine ('#' :: rest)))
  | '[' :: '[' :: rest =>
      let (names, rest) ← header 2 rest
      some (.more (← draft.enter appendTable names) (← endLine rest))
  | '[' :: rest =>
      let (names, rest) ← header 1 rest
      some (.more (← draft.enter openTable names) (← endLine rest))
  | text =>
      let ((names, value), rest) ← pair (value maxNesting) text
      some (.more (← draft.insert names value) (← endLine rest))

def skipMarker : List Char → List Char
  | '\uFEFF' :: rest => rest
  | text => text

def ofText? (text : String) : Option (List (String × Value)) := do
  let (draft, _) ← repeated lineStep {} (normalizeLineEnds (skipMarker text.toList))
  match ← resolve (.table (valuesOf draft.root)) with
  | .table entries => some entries
  | _ => none

end NovelScript.Toml
