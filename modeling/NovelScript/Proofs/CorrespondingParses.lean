import NovelScript.Grammar.Block
import NovelScript.Proofs.Correspondence

/-!
# Corresponding parses

The grammar looks at kinds, names and columns only.  From corresponding tokens every rule makes
corresponding results and errors, and leaves corresponding tokens behind.
-/

namespace NovelScript

theorem Cursor.advance_token (cursor : Cursor) : cursor.advance.1 = cursor.peek? := by
  unfold advance peek?
  split
  · next equal => rw [equal]; rfl
  · next equal => split <;> simp [equal]

namespace Correspondence

variable (matching : Correspondence) (source source' : List Char)

/-! ## Cursors -/

/-- Tokens that correspond with their texts; the texts of names are the same. -/
structure Readable (first second : Token) : Prop extends matching.Tokens first second where
  text : matching.text (first.value source) (second.value source')
  name : first.isName = true → first.value source = second.value source'

structure Cursors (first second : Cursor) : Prop where
  reads : first.source = source
  reads' : second.source = source'
  upcoming : List.Forall₂ (matching.Readable source source') first.upcoming second.upcoming
  current : Option.Rel matching.Tokens first.current second.current
  exhausted : first.exhausted = second.exhausted
  depth : first.depth = second.depth
  errors : List.Forall₂ matching.ParseErrors first.errors second.errors

variable {matching source source'}

namespace Readable

variable {first second : Token}

theorem hasKind (same : matching.Readable source source' first second) (kind : Kind) :
    first.hasKind kind = second.hasKind kind := by
  rw [Token.hasKind, Token.hasKind, same.kind, same.wrapped]

theorem isName (same : matching.Readable source source' first second) :
    first.isName = second.isName := by
  rw [Token.isName, Token.isName, same.hasKind, same.kind]

theorem isInvalid (same : matching.Readable source source' first second) :
    first.isInvalid = second.isInvalid := by
  rw [Token.isInvalid, Token.isInvalid, same.kind]

end Readable

theorem Spans.max {start start' : Position} {first second : Position}
    (starts : matching.position start start') (same : matching.position first second) :
    matching.position (first.max start) (second.max start') := by
  unfold Position.max
  rw [matching.compare same starts]
  split
  · exact same
  · exact starts

namespace Cursors

variable {first second : Cursor}

theorem peek? (same : matching.Cursors source source' first second) :
    Option.Rel (matching.Readable source source') first.peek? second.peek? := by
  unfold Cursor.peek?
  match first.upcoming, second.upcoming, same.upcoming with
  | _, _, .nil => exact .none
  | _, _, .cons here _ => exact .some here

theorem next (same : matching.Cursors source source' first second) :
    Option.Rel matching.Tokens first.peek? second.peek? := by
  match first.peek?, second.peek?, same.peek? with
  | _, _, .none => exact .none
  | _, _, .some here => exact .some here.toTokens

theorem hasNext (same : matching.Cursors source source' first second) :
    first.hasNext = second.hasNext := by
  unfold Cursor.hasNext
  match first.upcoming, second.upcoming, same.upcoming with
  | _, _, .nil => rfl
  | _, _, .cons _ _ => rfl

theorem test (same : matching.Cursors source source' first second) (kind : Kind) :
    first.test kind = second.test kind := by
  unfold Cursor.test
  match first.peek?, second.peek?, same.peek? with
  | _, _, .none => rfl
  | _, _, .some here => exact here.hasKind kind

theorem testName (same : matching.Cursors source source' first second) :
    first.testName = second.testName := by
  unfold Cursor.testName
  match first.peek?, second.peek?, same.peek? with
  | _, _, .none => rfl
  | _, _, .some here => exact here.isName

theorem lineIndent (same : matching.Cursors source source' first second) :
    first.lineIndent = second.lineIndent := by
  unfold Cursor.lineIndent
  match first.peek?, second.peek?, same.peek? with
  | _, _, .none => rfl
  | _, _, .some here => exact matching.column here.span.start

theorem levels (same : matching.Cursors source source' first second) :
    first.levels = second.levels := by
  rw [Cursor.levels, Cursor.levels, same.depth]

theorem spanFrom (same : matching.Cursors source source' first second)
    {start start' : Position} (starts : matching.position start start') :
    matching.Spans (first.spanFrom start) (second.spanFrom start') := by
  unfold Cursor.spanFrom
  match first.current, second.current, same.current with
  | _, _, .none => exact ⟨starts, starts⟩
  | _, _, .some last => exact ⟨starts, Spans.max starts last.span.stop⟩

/-! ## Moves -/

theorem record (same : matching.Cursors source source' first second) (problem : ParseProblem)
    (expected : List Kind) :
    matching.Cursors source source' (first.record problem expected)
      (second.record problem expected) :=
  { same with
    errors := List.rel_append same.errors (.cons ⟨rfl, same.current, same.next, rfl⟩ .nil) }

theorem recordUnexpected (same : matching.Cursors source source' first second) :
    matching.Cursors source source' first.recordUnexpected second.recordUnexpected :=
  same.record _ _

theorem shift (same : matching.Cursors source source' first second) {token token' : Token}
    (tokens : matching.Readable source source' token token') {rest rest' : List Token}
    (later : List.Forall₂ (matching.Readable source source') rest rest') :
    matching.Cursors source source' (first.shift token rest) (second.shift token' rest') :=
  { same with
    upcoming := later
    current := .some tokens.toTokens }

theorem advance (same : matching.Cursors source source' first second) :
    Option.Rel (matching.Readable source source') first.advance.1 second.advance.1 ∧
      matching.Cursors source source' first.advance.2 second.advance.2 := by
  have ends : matching.Cursors source source' { first with exhausted := true }
      { second with exhausted := true } := { same with exhausted := rfl }
  have before := same
  cases first
  cases second
  obtain ⟨_, _, upcoming, _, rfl, _, _⟩ := same
  cases upcoming with
  | cons here later => exact ⟨.some here, before.shift here later⟩
  | nil =>
      simp only [Cursor.advance]
      split
      · exact ⟨.none, before⟩
      · exact ⟨.none, ends.record _ _⟩

theorem skipLineFrom (same : matching.Cursors source source' first second)
    {tokens tokens' : List Token}
    (upcoming : List.Forall₂ (matching.Readable source source') tokens tokens') :
    matching.Cursors source source' (first.skipLineFrom tokens) (second.skipLineFrom tokens') := by
  induction upcoming generalizing first second with
  | nil => exact same
  | cons here later ih =>
      have shifted := same.shift here later
      simp only [Cursor.skipLineFrom, here.kind]
      split
      · exact shifted
      · exact ih shifted

theorem skipLine (same : matching.Cursors source source' first second) :
    matching.Cursors source source' first.skipLine second.skipLine :=
  same.skipLineFrom same.upcoming

theorem skipRestFrom (same : matching.Cursors source source' first second)
    {tokens tokens' : List Token}
    (upcoming : List.Forall₂ (matching.Readable source source') tokens tokens') :
    matching.Cursors source source' (first.skipRestFrom tokens) (second.skipRestFrom tokens') := by
  induction upcoming generalizing first second with
  | nil => exact same
  | cons here later ih =>
      simp only [Cursor.skipRestFrom, here.hasKind]
      split
      · exact same
      · exact ih (same.shift here later)

theorem skipRestOfLine (same : matching.Cursors source source' first second) :
    matching.Cursors source source' first.skipRestOfLine second.skipRestOfLine :=
  same.skipRestFrom same.upcoming

theorem skipNewlinesFrom (same : matching.Cursors source source' first second)
    {tokens tokens' : List Token}
    (upcoming : List.Forall₂ (matching.Readable source source') tokens tokens') :
    matching.Cursors source source' (first.skipNewlinesFrom tokens)
      (second.skipNewlinesFrom tokens') := by
  induction upcoming generalizing first second with
  | nil => exact same
  | cons here later ih =>
      simp only [Cursor.skipNewlinesFrom, here.hasKind]
      split
      · exact ih (same.shift here later)
      · exact same

theorem skipEmptyLines (same : matching.Cursors source source' first second) :
    matching.Cursors source source' first.skipEmptyLines second.skipEmptyLines :=
  same.skipNewlinesFrom same.upcoming

theorem expectEndOfLine (same : matching.Cursors source source' first second) :
    matching.Cursors source source' first.expectEndOfLine.2 second.expectEndOfLine.2 := by
  unfold Cursor.expectEndOfLine
  rw [same.hasNext, same.test]
  split
  · exact same
  split
  · exact same.advance.2
  · exact (same.record _ _).skipLine

theorem enterNested (same : matching.Cursors source source' first second) :
    first.enterNested.1 = second.enterNested.1 ∧
      matching.Cursors source source' first.enterNested.2 second.enterNested.2 := by
  unfold Cursor.enterNested
  rw [same.depth]
  split
  · exact ⟨rfl, same.recordUnexpected⟩
  · exact ⟨rfl, { same with depth := rfl }⟩

theorem leaveNested (same : matching.Cursors source source' first second) :
    matching.Cursors source source' first.leaveNested second.leaveNested :=
  { same with depth := congrArg (· - 1) same.depth }

theorem skipBlock (indent : Nat) (same : matching.Cursors source source' first second) :
    matching.Cursors source source' (first.skipBlock indent) (second.skipBlock indent) := by
  fun_induction Cursor.skipBlock indent first generalizing second with
  | case1 cursor line more =>
      rename_i ih
      have started : matching.Cursors source source' line second.skipEmptyLines :=
        same.skipEmptyLines
      rw [started.hasNext, started.lineIndent] at more
      rw [Cursor.skipBlock.eq_def indent second]
      simp only
      rw [if_pos more]
      exact ih started.skipLine
  | case2 cursor line =>
      rename_i done
      have started : matching.Cursors source source' line second.skipEmptyLines :=
        same.skipEmptyLines
      rw [started.hasNext, started.lineIndent] at done
      rw [Cursor.skipBlock.eq_def indent second]
      simp only
      rw [if_neg done]
      exact started

end Cursors

/-! ## Parses -/

variable (matching source source') in
/-- Parses that make corresponding results, or both none, from corresponding cursors. -/
def Relates {α β : Type} (relation : α → β → Prop) (first : Parse α) (second : Parse β) : Prop :=
  ∀ cursor cursor', matching.Cursors source source' cursor cursor' →
    Option.Rel relation (first cursor).1 (second cursor').1 ∧
      matching.Cursors source source' (first cursor).2 (second cursor').2

variable (matching source source') in
/-- A rule that could start at both of two corresponding cursors or at none, and makes
corresponding results. -/
structure Allows {α : Type} (relation : α → α → Prop) (rule : Rule α) : Prop where
  starts : ∀ cursor cursor', matching.Cursors source source' cursor cursor' →
    rule.starts cursor = rule.starts cursor'
  parse : matching.Relates source source' relation rule.parse rule.parse

namespace Relates

variable {α β γ δ : Type} {relation : α → β → Prop} {result : γ → δ → Prop}

theorem pure {first : α} {second : β} (same : relation first second) :
    matching.Relates source source' relation (Pure.pure first) (Pure.pure second) :=
  fun _ _ cursors => ⟨.some same, cursors⟩

theorem fail : matching.Relates source source' relation (Parse.fail : Parse α)
    (Parse.fail : Parse β) :=
  fun _ _ cursors => ⟨.none, cursors⟩

theorem bind {first : Parse α} {second : Parse β} {next : α → Parse γ} {next' : β → Parse δ}
    (starts : matching.Relates source source' relation first second)
    (behind : ∀ value value', relation value value' →
      matching.Relates source source' result (next value) (next' value')) :
    matching.Relates source source' result (first >>= next) (second >>= next') := by
  intro cursor cursor' cursors
  obtain ⟨values, left⟩ := starts cursor cursor' cursors
  generalize found : (first cursor).1 = value at values
  generalize found' : (second cursor').1 = value' at values
  cases values with
  | none =>
      rw [Parse.bind_none found, Parse.bind_none found']
      exact ⟨.none, left⟩
  | some same =>
      rw [Parse.bind_some found, Parse.bind_some found']
      exact behind _ _ same _ _ left

theorem attempt {first : Parse α} {second : Parse β}
    (same : matching.Relates source source' relation first second) :
    matching.Relates source source' (Option.Rel relation) first.attempt second.attempt :=
  fun cursor cursor' cursors =>
    ⟨.some (same cursor cursor' cursors).1, (same cursor cursor' cursors).2⟩

theorem look : matching.Relates source source' (matching.Cursors source source') Parse.look
    Parse.look :=
  fun _ _ cursors => ⟨.some cursors, cursors⟩

theorem move {change : Cursor → Cursor}
    (same : ∀ cursor cursor', matching.Cursors source source' cursor cursor' →
      matching.Cursors source source' (change cursor) (change cursor')) :
    matching.Relates source source' (fun _ _ => True) (Parse.move change) (Parse.move change) :=
  fun cursor cursor' cursors => ⟨.some trivial, same cursor cursor' cursors⟩

theorem spanFrom {start start' : Position} (starts : matching.position start start') :
    matching.Relates source source' matching.Spans (Parse.spanFrom start)
      (Parse.spanFrom start') :=
  fun _ _ cursors => ⟨.some (cursors.spanFrom starts), cursors⟩

/-! ## Tokens -/

variable (matching source source') in
/-- Readable tokens, of which the first is of a sort. -/
def Taken (holds : Token → Prop) (first second : Token) : Prop :=
  matching.Readable source source' first second ∧ holds first

private theorem takeIf {first second : Cursor}
    (same : matching.Cursors source source' first second) {accepts accepts' : Bool}
    (agree : accepts = accepts') (holds : Token → Prop)
    (told : accepts = true → ∀ token ∈ first.peek?, holds token) (expected : List Kind) :
    Option.Rel (Taken matching source source' holds) (first.takeIf accepts expected).1
        (second.takeIf accepts' expected).1 ∧
      matching.Cursors source source' (first.takeIf accepts expected).2
        (second.takeIf accepts' expected).2 := by
  subst agree
  unfold Cursor.takeIf
  split
  · next accepted =>
      obtain ⟨tokens, left⟩ := same.advance
      refine ⟨?_, left⟩
      have held : ∀ token ∈ first.advance.1, holds token := by
        rw [Cursor.advance_token]
        exact told accepted
      revert held
      match first.advance.1, second.advance.1, tokens with
      | _, _, .none => exact fun _ => .none
      | _, _, .some here => exact fun held => .some ⟨here, held _ rfl⟩
  · exact ⟨.none, same.record _ _⟩

theorem token (kind : Kind) :
    matching.Relates source source' (Taken matching source source' (·.hasKind kind = true))
      (Parse.token kind) (Parse.token kind) :=
  fun _ _ cursors => takeIf cursors (cursors.test kind) _
    (fun tested token next => by simpa [Cursor.test, Option.mem_def.1 next] using tested) _

theorem name :
    matching.Relates source source' (Taken matching source source' (·.isName = true))
      Parse.name Parse.name :=
  fun _ _ cursors => takeIf cursors cursors.testName _
    (fun tested token next => by simpa [Cursor.testName, Option.mem_def.1 next] using tested) _

theorem anyToken (kinds : List Kind) :
    matching.Relates source source' (matching.Readable source source')
      (Parse.anyToken kinds) (Parse.anyToken kinds) := by
  intro cursor cursor' cursors
  have agree : kinds.any cursor.test = kinds.any cursor'.test :=
    congrArg kinds.any (funext cursors.test)
  obtain ⟨tokens, left⟩ := takeIf cursors agree (fun _ => True) (fun _ _ _ => trivial) kinds
  refine ⟨?_, left⟩
  match (cursor.takeIf _ kinds).1, (cursor'.takeIf _ kinds).1, tokens with
  | _, _, .none => exact .none
  | _, _, .some taken => exact .some taken.1

theorem tokenIf (kind : Kind) :
    matching.Relates source source' (Option.Rel (matching.Readable source source'))
      (Parse.tokenIf kind) (Parse.tokenIf kind) := by
  refine attempt fun cursor cursor' cursors => ?_
  unfold Cursor.optionalToken
  rw [cursors.test]
  split
  · exact cursors.advance
  · exact ⟨.none, cursors⟩

theorem text {first second : Token} (same : matching.Readable source source' first second) :
    matching.Relates source source' matching.text (Parse.text first) (Parse.text second) := by
  intro cursor cursor' cursors
  have read := same.text
  rw [← cursors.reads, ← cursors.reads'] at read
  exact ⟨.some read, cursors⟩

theorem nameText {first second : Token} (same : matching.Readable source source' first second)
    (name : first.isName = true) :
    matching.Relates source source' Eq (Parse.text first) (Parse.text second) := by
  intro cursor cursor' cursors
  have read := same.name name
  rw [← cursors.reads, ← cursors.reads'] at read
  exact ⟨.some read, cursors⟩

end Relates

/-! ## Rules -/

namespace Allows

variable {α : Type} {relation : α → α → Prop} {rule : Rule α}

theorem startingAt (kind : Kind) {parse : Parse α}
    (same : matching.Relates source source' relation parse parse) :
    matching.Allows source source' relation (.startingAt kind parse) :=
  ⟨fun _ _ cursors => cursors.test kind, same⟩

theorem require (allows : matching.Allows source source' relation rule) :
    matching.Relates source source' relation rule.require rule.require := by
  intro cursor cursor' cursors
  unfold Rule.require
  rw [allows.starts cursor cursor' cursors]
  split
  · exact allows.parse cursor cursor' cursors
  · exact ⟨.none, cursors.recordUnexpected⟩

theorem optional (allows : matching.Allows source source' relation rule) :
    matching.Relates source source' (Option.Rel relation) rule.optional rule.optional := by
  intro cursor cursor' cursors
  unfold Rule.optional
  rw [allows.starts cursor cursor' cursors]
  split
  · exact allows.parse.attempt cursor cursor' cursors
  · exact ⟨.some .none, cursors⟩

theorem choice {rules : List (Rule α)}
    (all : ∀ rule ∈ rules, matching.Allows source source' relation rule) :
    matching.Allows source source' relation (.choice rules) := by
  have found (cursor cursor' : Cursor) (cursors : matching.Cursors source source' cursor cursor') :
      rules.find? (·.starts cursor) = rules.find? (·.starts cursor') := by
    induction rules with
    | nil => rfl
    | cons rule rules ih =>
        rw [List.find?_cons, List.find?_cons, (all rule (by simp)).starts cursor cursor' cursors,
          ih fun other member => all other (by simp [member])]
  constructor
  · intro cursor cursor' cursors
    have same := congrArg Option.isSome (found cursor cursor' cursors)
    simpa only [Rule.choice, List.isSome_find?] using same
  · intro cursor cursor' cursors
    have same := found cursor cursor' cursors
    cases first : rules.find? (·.starts cursor) with
    | some rule =>
        rw [Rule.choice_some first, Rule.choice_some (same ▸ first)]
        exact (all rule (List.mem_of_find?_eq_some first)).parse cursor cursor' cursors
    | none =>
        rw [Rule.choice_none first, Rule.choice_none (same ▸ first)]
        exact ⟨.none, cursors.recordUnexpected⟩

end Allows

namespace Relates

variable {α : Type} {relation : α → α → Prop}

theorem separated {item : Parse α} (same : matching.Relates source source' relation item item)
    (advances : item.Advances) {first second : Cursor}
    (cursors : matching.Cursors source source' first second) :
    List.Forall₂ relation (Parse.separated item advances first).1
        (Parse.separated item advances second).1 ∧
      matching.Cursors source source' (Parse.separated item advances first).2
        (Parse.separated item advances second).2 := by
  fun_induction Parse.separated item advances first generalizing second with
  | case1 first behind found =>
      obtain ⟨values, left⟩ := same first second cursors
      rw [found] at values left
      rw [Parse.separated]
      split
      · next behind' run =>
          rw [run] at left
          exact ⟨.nil, left⟩
      · next run =>
          rw [run] at values
          cases values
  | case2 first value behind found tested values last equal ih =>
      obtain ⟨results, left⟩ := same first second cursors
      rw [found] at results left
      rw [Parse.separated]
      split
      · next run =>
          rw [run] at results
          cases results
      · next value' behind' run =>
          rw [run] at results left
          cases results with
          | some here =>
              rw [left.test] at tested
              obtain ⟨later, ends⟩ := ih left.advance.2
              rw [equal] at later ends
              rw [if_pos tested]
              exact ⟨.cons here later, ends⟩
  | case3 first value behind found tested =>
      obtain ⟨results, left⟩ := same first second cursors
      rw [found] at results left
      rw [Parse.separated]
      split
      · next run =>
          rw [run] at results
          cases results
      · next value' behind' run =>
          rw [run] at results left
          cases results with
          | some here =>
              rw [left.test] at tested
              rw [if_neg tested]
              exact ⟨.cons here .nil, (token _ _ _ left).2⟩

theorem parenthesizedList {item : Parse α}
    (same : matching.Relates source source' relation item item) (advances : item.Advances) :
    matching.Relates source source' (List.Forall₂ relation)
      (Parse.parenthesizedList item advances) (Parse.parenthesizedList item advances) := by
  refine bind (tokenIf _) fun opening opening' openings => ?_
  cases openings with
  | none => exact pure .nil
  | some _ =>
      refine bind (tokenIf _) fun closing closing' closings => ?_
      cases closings with
      | some _ => exact pure .nil
      | none =>
          intro cursor cursor' cursors
          obtain ⟨values, left⟩ := same.separated advances cursors
          exact ⟨.some values, left⟩

end Relates

end Correspondence

end NovelScript
