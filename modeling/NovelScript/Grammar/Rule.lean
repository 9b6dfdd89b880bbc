import NovelScript.Grammar.Cursor

/-!
# Rules

A parse takes a cursor to a result, if there is one, and the cursor behind it; errors are on the
cursor.  A rule adds the question whether it could start here, which looks at the next token only.
No parse ever puts a token back, so what is left is always a suffix of what was left before.
-/

namespace NovelScript

def Parse (α : Type) : Type := Cursor → Option α × Cursor

namespace Parse

instance : Monad Parse where
  pure value := fun cursor => (some value, cursor)
  bind first next := fun cursor =>
    match first cursor with
    | (some value, behind) => next value behind
    | (none, behind) => (none, behind)

/-- A parse that goes on with nothing where `parse` fails. -/
def attempt (parse : Parse α) : Parse (Option α) := fun cursor =>
  let (result, behind) := parse cursor
  (some result, behind)

def look : Parse Cursor := fun cursor => (some cursor, cursor)

def move (change : Cursor → Cursor) : Parse Unit := fun cursor => (some (), change cursor)

def fail : Parse α := fun cursor => (none, cursor)

def token (kind : Kind) : Parse Token := Cursor.requireToken kind

def name : Parse Token := Cursor.requireName

def anyToken (kinds : List Kind) : Parse Token := Cursor.requireAny kinds

def tokenIf (kind : Kind) : Parse (Option Token) := attempt (Cursor.optionalToken kind)

def text (token : Token) : Parse String := fun cursor =>
  (some (token.value cursor.source), cursor)

def spanFrom (start : Position) : Parse Span := fun cursor =>
  (some (cursor.spanFrom start), cursor)

theorem bind_some {first : Parse α} {next : α → Parse β} {cursor : Cursor} {value : α}
    (found : (first cursor).1 = some value) :
    (first >>= next) cursor = next value (first cursor).2 := by
  show (match first cursor with
    | (some value, behind) => next value behind
    | (none, behind) => (none, behind)) = next value (first cursor).2
  cases equal : first cursor with
  | mk result behind =>
      rw [equal] at found
      cases found
      rfl

theorem bind_none {first : Parse α} {next : α → Parse β} {cursor : Cursor}
    (failed : (first cursor).1 = none) : (first >>= next) cursor = (none, (first cursor).2) := by
  show (match first cursor with
    | (some value, behind) => next value behind
    | (none, behind) => (none, behind)) = (none, (first cursor).2)
  cases equal : first cursor with
  | mk result behind =>
      rw [equal] at failed
      cases failed
      rfl

/-! ## Nothing is put back -/

/-- What is left behind a parse is a suffix of what was left before it. -/
def Advances (parse : Parse α) : Prop :=
  ∀ cursor, (parse cursor).2.upcoming <:+ cursor.upcoming

theorem Advances.pure (value : α) : Advances (pure value : Parse α) :=
  fun cursor => List.suffix_refl cursor.upcoming

theorem Advances.bind {first : Parse α} {next : α → Parse β} (start : first.Advances)
    (behind : ∀ value, (next value).Advances) : Advances (first >>= next) := by
  intro cursor
  have started := start cursor
  cases found : (first cursor).1 with
  | some value =>
      rw [bind_some found]
      exact (behind value _).trans started
  | none =>
      rw [bind_none found]
      exact started

theorem Advances.attempt {parse : Parse α} (advances : parse.Advances) :
    parse.attempt.Advances := advances

theorem look_advances : look.Advances := fun cursor => List.suffix_refl cursor.upcoming

theorem fail_advances : (fail : Parse α).Advances :=
  fun cursor => List.suffix_refl cursor.upcoming

theorem move_advances {change : Cursor → Cursor}
    (advances : ∀ cursor, (change cursor).upcoming <:+ cursor.upcoming) :
    (move change).Advances := advances

private theorem takeIf_suffix (cursor : Cursor) (accepts : Bool) (expected : List Kind) :
    (cursor.takeIf accepts expected).2.upcoming <:+ cursor.upcoming := by
  unfold Cursor.takeIf
  split
  · simpa using List.tail_suffix cursor.upcoming
  · exact List.suffix_refl _

theorem token_advances (kind : Kind) : (token kind).Advances :=
  fun cursor => takeIf_suffix cursor _ _

theorem name_advances : name.Advances := fun cursor => takeIf_suffix cursor _ _

theorem anyToken_advances (kinds : List Kind) : (anyToken kinds).Advances :=
  fun cursor => takeIf_suffix cursor _ _

theorem tokenIf_advances (kind : Kind) : (tokenIf kind).Advances := by
  intro cursor
  show (Cursor.optionalToken kind cursor).2.upcoming <:+ cursor.upcoming
  unfold Cursor.optionalToken
  split
  · simpa using List.tail_suffix cursor.upcoming
  · exact List.suffix_refl _

theorem text_advances (token : Token) : (text token).Advances :=
  fun cursor => List.suffix_refl cursor.upcoming

theorem spanFrom_advances (start : Position) : (spanFrom start).Advances :=
  fun cursor => List.suffix_refl cursor.upcoming

end Parse

structure Rule (α : Type) where
  starts : Cursor → Bool
  parse : Parse α

namespace Rule

/-- The rule, or an error where it could not start. -/
def require (rule : Rule α) : Parse α := fun cursor =>
  if rule.starts cursor then rule.parse cursor else (none, cursor.recordUnexpected)

def optional (rule : Rule α) : Parse (Option α) := fun cursor =>
  if rule.starts cursor then rule.parse.attempt cursor else (some none, cursor)

/-- The first of the rules that could start; an error if none could. -/
def choice (rules : List (Rule α)) : Rule α where
  starts cursor := rules.any (·.starts cursor)
  parse cursor :=
    match rules.find? (·.starts cursor) with
    | some rule => rule.parse cursor
    | none => (none, cursor.recordUnexpected)

def startingAt (kind : Kind) (parse : Parse α) : Rule α := ⟨(·.test kind), parse⟩

theorem require_advances {rule : Rule α} (advances : rule.parse.Advances) :
    rule.require.Advances := by
  intro cursor
  unfold require
  split
  · exact advances cursor
  · exact List.suffix_refl _

theorem optional_advances {rule : Rule α} (advances : rule.parse.Advances) :
    rule.optional.Advances := by
  intro cursor
  unfold optional
  split
  · exact advances cursor
  · exact List.suffix_refl _

theorem choice_some {rules : List (Rule α)} {cursor : Cursor} {rule : Rule α}
    (found : rules.find? (·.starts cursor) = some rule) :
    (choice rules).parse cursor = rule.parse cursor := by
  simp only [choice, found]

theorem choice_none {rules : List (Rule α)} {cursor : Cursor}
    (none : rules.find? (·.starts cursor) = none) :
    (choice rules).parse cursor = (.none, cursor.recordUnexpected) := by
  simp only [choice, none]

theorem choice_advances {rules : List (Rule α)}
    (advances : ∀ rule ∈ rules, rule.parse.Advances) : (choice rules).parse.Advances := by
  intro cursor
  cases found : rules.find? (·.starts cursor) with
  | some rule =>
      rw [choice_some found]
      exact advances rule (List.mem_of_find?_eq_some found) cursor
  | none =>
      rw [choice_none found]
      exact List.suffix_refl _

end Rule

namespace Parse

/-! ## Lists -/

/-- Items with commas between them, and the closing parenthesis.  Reading stops at an item that
fails. -/
def separated (item : Parse α) (advances : item.Advances) (cursor : Cursor) :
    List α × Cursor :=
  match _found : item cursor with
  | (none, behind) => ([], behind)
  | (some value, behind) =>
      if behind.test (.punctuation .comma) = true then
        let (values, last) := separated item advances behind.advance.2
        (value :: values, last)
      else ([value], (behind.requireToken (.punctuation .closeParen)).2)
termination_by cursor.upcoming.length
decreasing_by
  rename_i tested
  have shorter := (advances cursor).length_le
  have more := List.length_pos_iff.2 (Cursor.upcoming_ne_nil_of_test tested)
  rw [_found] at shorter
  simp at shorter ⊢
  omega

theorem separated_suffix (item : Parse α) (advances : item.Advances) (cursor : Cursor) :
    (separated item advances cursor).2.upcoming <:+ cursor.upcoming := by
  fun_induction separated item advances cursor with
  | case1 cursor behind found => simpa [found] using advances cursor
  | case2 cursor value behind found tested values last equal ih =>
      have started := advances cursor
      rw [found] at started
      rw [equal] at ih
      rw [Cursor.advance_upcoming] at ih
      exact (ih.trans (List.tail_suffix _)).trans started
  | case3 cursor value behind found tested =>
      have started := advances cursor
      rw [found] at started
      exact (token_advances _ behind).trans started

def parenthesizedList (item : Parse α) (advances : item.Advances) : Parse (List α) := do
  match ← tokenIf (.punctuation .openParen) with
  | none => pure []
  | some _ =>
      match ← tokenIf (.punctuation .closeParen) with
      | some _ => pure []
      | none => fun cursor =>
          let (values, behind) := separated item advances cursor
          (some values, behind)

theorem parenthesizedList_advances (item : Parse α) (advances : item.Advances) :
    (parenthesizedList item advances).Advances := by
  refine Advances.bind (tokenIf_advances _) fun opening => ?_
  cases opening with
  | none => exact Advances.pure _
  | some _ =>
      refine Advances.bind (tokenIf_advances _) fun closing => ?_
      cases closing with
      | some _ => exact Advances.pure _
      | none => exact separated_suffix item advances

end Parse

end NovelScript
