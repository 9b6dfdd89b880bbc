import NovelScript.Settings.Value

/-!
# Tables under construction

While a document is read, its tables remember how they came to be, since that decides what may still
be added: a table with a header of its own cannot get another one, a table that only dotted keys
have made grows by dotted keys alone, and a table that is merely implied by longer headers may still
get its own.
-/

namespace NovelScript.Toml

inductive Origin where
  | header
  /-- As a part of the header of another table. -/
  | implied
  | dotted
  deriving DecidableEq, Repr

inductive Node where
  | value (value : Value)
  | table (origin : Origin) (entries : List (String × Node))
  /-- Tables that each have the same header in double brackets. -/
  | tables (elements : List (List (String × Node)))
  deriving Repr

abbrev Entries := List (String × Node)

def replace (name : String) (node : Node) (entries : Entries) : Entries :=
  entries.map fun entry => if entry.1 = name then (name, node) else entry

/-! ## Keys -/

/-- Add a value under a dotted key to a table that takes values of its own if `isOpen`. -/
def insert (value : Value) (isOpen : Bool) : List String → Entries → Option Entries
  | [], _ => none
  | [name], entries =>
      if isOpen && (entries.lookup name).isNone then some (entries ++ [(name, .value value)])
      else none
  | name :: rest, entries =>
      match entries.lookup name with
      | none => do
          let inner ← insert value true rest []
          some (entries ++ [(name, .table .dotted inner)])
      | some (.table .header _) => none
      | some (.table origin inner) => do
          let inner ← insert value (origin = .dotted) rest inner
          some (replace name (.table origin inner) entries)
      | some (.tables elements) => do
          let last ← insert value false rest (← elements.getLast?)
          some (replace name (.tables (elements.dropLast ++ [last])) entries)
      | some (.value _) => none

/-! ## Headers -/

/-- Change the table that a path of headers leads to; what is missing on the way is implied. -/
def within (change : Entries → Option Entries) : List String → Entries → Option Entries
  | [], entries => change entries
  | name :: rest, entries =>
      match entries.lookup name with
      | none => do
          let inner ← within change rest []
          some (entries ++ [(name, .table .implied inner)])
      | some (.table origin inner) => do
          let inner ← within change rest inner
          some (replace name (.table origin inner) entries)
      | some (.tables elements) => do
          let last ← within change rest (← elements.getLast?)
          some (replace name (.tables (elements.dropLast ++ [last])) entries)
      | some (.value _) => none

/-- Give a table its header.  A table that was implied so far moves to the end. -/
def openTable (name : String) (entries : Entries) : Option Entries :=
  match entries.lookup name with
  | none => some (entries ++ [(name, .table .header [])])
  | some (.table .implied inner) =>
      some (entries.filter (·.1 ≠ name) ++ [(name, .table .header inner)])
  | some _ => none

def appendTable (name : String) (entries : Entries) : Option Entries :=
  match entries.lookup name with
  | none => some (entries ++ [(name, .tables [[]])])
  | some (.tables elements) => some (replace name (.tables (elements ++ [[]])) entries)
  | some _ => none

/-! ## Finished tables -/

mutual

def Node.toValue : Node → Value
  | .value value => value
  | .table _ entries => .table (valuesOf entries)
  | .tables elements => .list (tablesOf elements)

def valuesOf : List (String × Node) → List (String × Value)
  | [] => []
  | (name, node) :: rest => (name, node.toValue) :: valuesOf rest

def tablesOf : List (List (String × Node)) → List Value
  | [] => []
  | entries :: rest => .table (valuesOf entries) :: tablesOf rest

end

end NovelScript.Toml
