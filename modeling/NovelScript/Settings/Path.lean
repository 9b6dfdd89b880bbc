import NovelScript.Settings.Value
import NovelScript.Text.LowerCase

/-!
# Paths of settings

A path names a part of nested data: a name, then further names behind dots and positions between
brackets, counted from the end if negative.  Putting a value at a path makes room for it: what is in
the way gives place to a table or a list, and lists are filled up with nothing at either end.
Capitals and small letters make no difference in names, which are kept in lower case.
-/

namespace NovelScript

inductive Step where
  | name (name : String)
  | position (index : Int)
  deriving DecidableEq, Repr

structure SettingPath where
  root : String
  steps : List Step
  deriving DecidableEq, Repr

namespace SettingPath

/-! ## Written paths -/

def isNameCharacter (character : Char) : Bool :=
  character.isAlphanum || character = ' ' || character = '_' || character = '-'

/-- The name in front of a text, which must not be empty, and the text behind it. -/
def name? (text : List Char) : Option (String × List Char) :=
  let name := text.takeWhile isNameCharacter
  if name.isEmpty then none else some (String.ofList name, text.drop name.length)

def skipSpaces (text : List Char) : List Char :=
  text.dropWhile fun character => character = ' ' || character = '\t'

/-- The position in front of a text and its closing bracket, and the text behind them. -/
def position? (text : List Char) : Option (Int × List Char) :=
  let text := skipSpaces text
  let negative := text.head? = some '-'
  let text := if negative then text.tail else text
  let digits := text.takeWhile Char.isDigit
  match (String.ofList digits).toNat?, skipSpaces (text.drop digits.length) with
  | some size, ']' :: rest =>
      let index : Int := if negative then -(size : Int) else size
      if -0x8000000000000000 ≤ index ∧ index < 0x8000000000000000 then some (index, rest) else none
  | _, _ => none

def step? : List Char → Option (Step × List Char)
  | '.' :: rest => (name? rest).map fun (name, rest) => (.name name, rest)
  | '[' :: rest => (position? rest).map fun (index, rest) => (.position index, rest)
  | _ => none

def steps? (text : List Char) : Option (List Step) :=
  if text.isEmpty then some []
  else
    match step? text with
    | some (step, rest) =>
        if rest.length < text.length then (steps? rest).map (step :: ·) else none
    | none => none
termination_by text.length

def ofText? (text : String) : Option SettingPath := do
  let (root, rest) ← name? text.toList
  some ⟨root, ← steps? rest⟩

end SettingPath

/-! ## Putting values -/

namespace Value

/-- The entries of a table, none for anything else. -/
def entries : Value → List (String × Value)
  | .table entries => entries
  | _ => []

/-- The elements of a list, none for anything else. -/
def elements : Value → List Value
  | .list values => values
  | _ => []

def update (name : String) (change : Option Value → Value) :
    List (String × Value) → List (String × Value)
  | [] => [(name, change none)]
  | (other, value) :: rest =>
      if other = name then (name, change (some value)) :: rest
      else (other, value) :: update name change rest

theorem lookup_update_self (name : String) (change : Option Value → Value)
    (entries : List (String × Value)) :
    (update name change entries).lookup name = some (change (entries.lookup name)) := by
  induction entries with
  | nil => simp [update]
  | cons entry rest ih =>
      obtain ⟨other, value⟩ := entry
      by_cases same : other = name
      · simp [update, same]
      · have different : (name == other) = false := by simpa using Ne.symm same
        simp [update, same, List.lookup_cons, different, ih]

theorem lookup_update_of_ne {name wanted : String} (different : wanted ≠ name)
    (change : Option Value → Value) (entries : List (String × Value)) :
    (update name change entries).lookup wanted = entries.lookup wanted := by
  induction entries with
  | nil => simp [update, different]
  | cons entry rest ih =>
      obtain ⟨other, value⟩ := entry
      by_cases same : other = name
      · have away : (wanted == name) = false := by simpa using different
        simp [update, same, List.lookup_cons, away]
      · simp [update, same, List.lookup_cons, ih]

mutual

/-- Put a value in the place of another.  Tables are merged entry by entry, anything else replaces
what was there. -/
def layer (incoming : Value) (present : Option Value) : Value :=
  match incoming with
  | .table entries => layerEntries entries (present.getD (.table []))
  | other => other

/-- Put entries into a value, which becomes a table if there are any. -/
def layerEntries (incoming : List (String × Value)) (target : Value) : Value :=
  match incoming with
  | [] => target
  | (name, value) :: rest =>
      layerEntries rest (.table (update (Text.lowerCase name) (layer value) target.entries))

end

/-- Change the element at an index, filling the list up to it, or in front down to it. -/
def updateElement (index : Int) (change : Value → Value) (values : List Value) : List Value :=
  match index with
  | .ofNat index =>
      (values ++ List.replicate (index + 1 - values.length) Value.nil).modify index change
  | .negSucc before =>
      let filled := List.replicate (before + 1 - values.length) Value.nil ++ values
      filled.modify (filled.length - (before + 1)) change

def put (incoming : Value) : List Step → Value → Value
  | [], target => target
  | [.name name], target =>
      .table (update (Text.lowerCase name) (layer incoming) target.entries)
  | [.position index], target => .list (updateElement index (fun _ => incoming) target.elements)
  | .name name :: rest, target =>
      let inner (present : Option Value) : Value := put incoming rest (present.getD .nil)
      .table (update (Text.lowerCase name) inner target.entries)
  | .position index :: rest, target =>
      .list (updateElement index (put incoming rest) target.elements)

def putAt (incoming : Value) (path : SettingPath) (target : Value) : Value :=
  put incoming (.name path.root :: path.steps) target

end Value

end NovelScript
