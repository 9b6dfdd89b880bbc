import NovelScript.Grammar.Block
import NovelScript.Proofs.Coverage
import NovelScript.Proofs.SpanTree
import NovelScript.Proofs.Trace

/-!
# Where parses lie

A cursor stands behind the last token it has taken, and a parse moves it forward only.  So what a
parse makes lies between where its cursor stood before and where it stands behind, with the spans
of its parts nested.
-/

namespace NovelScript

open Parse Grammar SpanTree

variable {lines : LineMap} {start stop first last : Nat}

/-! ## Trees between two offsets -/

namespace SpanTree

/-- A tree whose spans are nested, from no earlier than `start` to no later than `stop`. -/
structure Lies (lines : LineMap) (start stop : Nat) (tree : SpanTree) : Prop where
  nested : tree.Nested lines
  place : ∃ first last, start ≤ first ∧ first ≤ last ∧ last ≤ stop ∧
    tree.span = lines.spanAt first last

def AllLie (lines : LineMap) (start stop : Nat) (trees : List SpanTree) : Prop :=
  ∀ tree ∈ trees, tree.Lies lines start stop

theorem Lies.mono {tree : SpanTree} (lies : tree.Lies lines first last) (begins : start ≤ first)
    (ends : last ≤ stop) : tree.Lies lines start stop := by
  obtain ⟨first_, last_, later, ordered, earlier, equal⟩ := lies.place
  exact ⟨lies.nested, first_, last_, Nat.le_trans begins later, ordered,
    Nat.le_trans earlier ends, equal⟩

/-- A node around trees that lie between its ends. -/
theorem Lies.node {trees : List SpanTree} (inside : AllLie lines first last trees)
    (begins : start ≤ first) (ordered : first ≤ last) (ends : last ≤ stop) :
    (SpanTree.node (lines.spanAt first last) trees).Lies lines start stop := by
  refine ⟨.node (LineMap.spanAt_located ordered) (fun tree child => ?_) fun tree child =>
    (inside tree child).nested, first, last, begins, ordered, ends, rfl⟩
  obtain ⟨first_, last_, later, inOrder, earlier, equal⟩ := (inside tree child).place
  rw [equal]
  exact LineMap.spanAt_within later inOrder earlier

namespace AllLie

variable {trees others : List SpanTree}

theorem nil : AllLie lines start stop [] := by simp [AllLie]

theorem cons {tree : SpanTree} (one : tree.Lies lines start stop)
    (rest : AllLie lines start stop trees) : AllLie lines start stop (tree :: trees) := by
  intro other member
  rcases List.mem_cons.1 member with rfl | later
  · exact one
  · exact rest other later

theorem append (one : AllLie lines start stop trees) (two : AllLie lines start stop others) :
    AllLie lines start stop (trees ++ others) := by
  intro tree member
  rcases List.mem_append.1 member with before | behind
  · exact one tree before
  · exact two tree behind

theorem mono (inside : AllLie lines first last trees) (begins : start ≤ first)
    (ends : last ≤ stop) : AllLie lines start stop trees :=
  fun tree member => (inside tree member).mono begins ends

theorem option {value : Option α} {toTree : α → SpanTree}
    (inside : ∀ one ∈ value, (toTree one).Lies lines start stop) :
    AllLie lines start stop (value.toList.map toTree) := by
  cases value with
  | none => exact nil
  | some one => exact cons (inside one rfl) nil

end AllLie

end SpanTree

/-! ## Tokens and cursors -/

namespace Token

/-- A token from no earlier than `start` to `stop`. -/
def Spans (lines : LineMap) (start stop : Nat) (token : Token) : Prop :=
  ∃ first, start ≤ first ∧ first < stop ∧ token.span = lines.spanAt first stop

theorem Spans.lt {token : Token} (spans : token.Spans lines start stop) : start < stop := by
  obtain ⟨first, begins, ordered, -⟩ := spans
  omega

theorem Spans.lies {token : Token} (spans : token.Spans lines start stop) :
    (leaf token.span).Lies lines start stop := by
  obtain ⟨first, begins, ordered, equal⟩ := spans
  rw [equal]
  exact .node .nil begins (Nat.le_of_lt ordered) (Nat.le_refl _)

/-- Tokens one behind the other, the first no earlier than `start`. -/
def InOrder (lines : LineMap) : Nat → List Token → Prop
  | _, [] => True
  | start, token :: rest =>
      ∃ stop ≤ lines.size, token.Spans lines start stop ∧ InOrder lines stop rest

theorem InOrder.mono {tokens : List Token} (inOrder : InOrder lines first tokens)
    (begins : start ≤ first) : InOrder lines start tokens := by
  cases tokens with
  | nil => trivial
  | cons token rest =>
      obtain ⟨stop, inside, ⟨first_, later, ordered, equal⟩, behind⟩ := inOrder
      exact ⟨stop, inside, ⟨first_, Nat.le_trans begins later, ordered, equal⟩, behind⟩

theorem InOrder.filter {tokens : List Token} (inOrder : InOrder lines start tokens)
    (keep : Token → Bool) : InOrder lines start (tokens.filter keep) := by
  induction tokens generalizing start with
  | nil => trivial
  | cons token rest ih =>
      obtain ⟨stop, inside, spans, behind⟩ := inOrder
      rw [List.filter_cons]
      split
      · exact ⟨stop, inside, spans, ih behind⟩
      · exact (ih behind).mono (Nat.le_of_lt spans.lt)

private theorem inOrder_of_tile {source : List Char} {tokens : List Token}
    (tile : Tile start tokens stop) (placed : ∀ token ∈ tokens, token.Placed source) :
    InOrder (LineMap.ofText source) start tokens := by
  induction tokens generalizing start with
  | nil => trivial
  | cons token rest ih =>
      obtain ⟨begins, longer, behind⟩ := tile
      have place := placed token List.mem_cons_self
      obtain ⟨before, after, split, equal⟩ := place.stop_boundary
      refine ⟨token.stop.offset, ?_, ⟨start, Nat.le_refl _, longer, ?_⟩,
        ih behind fun later member => placed later (List.mem_cons_of_mem _ member)⟩
      · rw [← equal]
        simp [LineMap.ofText, split]
      · rw [← begins]
        exact place.positions

theorem ofText_inOrder (source : List Char) :
    InOrder (LineMap.ofText source) 0 (ofText source) :=
  inOrder_of_tile (ofText_tile source) (ofText_placed source)

end Token

namespace Cursor

/-- A cursor whose last token ends at `reach`, and whose later tokens start no earlier. -/
structure Along (lines : LineMap) (reach : Nat) (cursor : Cursor) : Prop where
  upcoming : Token.InOrder lines reach cursor.upcoming
  current : cursor.current.elim .origin Token.stop = lines.positionAt reach
  inside : reach ≤ lines.size

namespace Along

variable {cursor : Cursor}

theorem record (along : cursor.Along lines start) (problem : ParseProblem)
    (expected : List Kind) : (cursor.record problem expected).Along lines start :=
  ⟨along.upcoming, along.current, along.inside⟩

theorem recordUnexpected (along : cursor.Along lines start) :
    cursor.recordUnexpected.Along lines start :=
  along.record _ _

theorem atDepth (along : cursor.Along lines start) (depth : Nat) :
    { cursor with depth := depth }.Along lines start :=
  ⟨along.upcoming, along.current, along.inside⟩

theorem enterNested (along : cursor.Along lines start) :
    cursor.enterNested.2.Along lines start := by
  unfold Cursor.enterNested
  split
  · exact along.recordUnexpected
  · exact along.atDepth _

theorem shift (along : cursor.Along lines start) {token : Token} {rest : List Token}
    (next : cursor.upcoming = token :: rest) :
    ∃ stop, token.Spans lines start stop ∧ (cursor.shift token rest).Along lines stop := by
  have upcoming := along.upcoming
  rw [next] at upcoming
  obtain ⟨stop, inside, spans, behind⟩ := upcoming
  refine ⟨stop, spans, behind, ?_, inside⟩
  obtain ⟨first, -, -, equal⟩ := spans
  exact congrArg Span.stop equal

theorem advance (along : cursor.Along lines start) :
    ∃ stop, start ≤ stop ∧ cursor.advance.2.Along lines stop ∧
      ∀ token ∈ cursor.advance.1, token.Spans lines start stop := by
  cases next : cursor.upcoming with
  | cons token rest =>
      obtain ⟨stop, spans, behind⟩ := along.shift next
      rw [advance_eq next]
      refine ⟨stop, Nat.le_of_lt spans.lt, behind, ?_⟩
      rintro _ ⟨⟩
      exact spans
  | nil =>
      refine ⟨start, Nat.le_refl _, ?_⟩
      simp only [Cursor.advance, next]
      split
      · exact ⟨along, by simp⟩
      · exact ⟨⟨trivial, along.current, along.inside⟩, by simp⟩

/-! ## Lines -/

theorem skipLineFrom (tokens : List Token) (along : cursor.Along lines start)
    (equal : cursor.upcoming = tokens) :
    ∃ stop, start ≤ stop ∧ (tokens ≠ [] → start < stop) ∧
      (cursor.skipLineFrom tokens).Along lines stop := by
  induction tokens generalizing cursor start with
  | nil => exact ⟨start, Nat.le_refl _, by simp, along⟩
  | cons token rest ih =>
      obtain ⟨middle, spans, behind⟩ := along.shift equal
      have longer := spans.lt
      unfold Cursor.skipLineFrom
      dsimp only
      split
      · exact ⟨middle, Nat.le_of_lt longer, fun _ => longer, behind⟩
      · obtain ⟨stop, further, -, ended⟩ := ih behind rfl
        exact ⟨stop, by omega, fun _ => by omega, ended⟩

theorem skipRestFrom (tokens : List Token) (along : cursor.Along lines start)
    (equal : cursor.upcoming = tokens) :
    ∃ stop, start ≤ stop ∧ (cursor.skipRestFrom tokens).Along lines stop := by
  induction tokens generalizing cursor start with
  | nil => exact ⟨start, Nat.le_refl _, along⟩
  | cons token rest ih =>
      unfold Cursor.skipRestFrom
      split
      · exact ⟨start, Nat.le_refl _, along⟩
      · obtain ⟨middle, spans, behind⟩ := along.shift equal
        obtain ⟨stop, further, ended⟩ := ih behind rfl
        exact ⟨stop, Nat.le_trans (Nat.le_of_lt spans.lt) further, ended⟩

theorem skipNewlinesFrom (tokens : List Token) (along : cursor.Along lines start)
    (equal : cursor.upcoming = tokens) :
    ∃ stop, start ≤ stop ∧ (cursor.skipNewlinesFrom tokens).Along lines stop := by
  induction tokens generalizing cursor start with
  | nil => exact ⟨start, Nat.le_refl _, along⟩
  | cons token rest ih =>
      unfold Cursor.skipNewlinesFrom
      split
      · obtain ⟨middle, spans, behind⟩ := along.shift equal
        obtain ⟨stop, further, ended⟩ := ih behind rfl
        exact ⟨stop, Nat.le_trans (Nat.le_of_lt spans.lt) further, ended⟩
      · exact ⟨start, Nat.le_refl _, along⟩

theorem skipRestOfLine (along : cursor.Along lines start) :
    ∃ stop, start ≤ stop ∧ cursor.skipRestOfLine.Along lines stop :=
  along.skipRestFrom _ rfl

theorem skipEmptyLines (along : cursor.Along lines start) :
    ∃ stop, start ≤ stop ∧ cursor.skipEmptyLines.Along lines stop :=
  along.skipNewlinesFrom _ rfl

theorem skipLine (along : cursor.Along lines start) :
    ∃ stop, start ≤ stop ∧ cursor.skipLine.Along lines stop := by
  obtain ⟨stop, further, -, ended⟩ := along.skipLineFrom _ rfl
  exact ⟨stop, further, ended⟩

/-- Behind the end of a line the cursor stands further on, unless there is nothing behind it. -/
theorem expectEndOfLine (along : cursor.Along lines start) :
    ∃ stop, start ≤ stop ∧ cursor.expectEndOfLine.2.Along lines stop ∧
      (cursor.expectEndOfLine.2.upcoming ≠ [] → start < stop) := by
  unfold Cursor.expectEndOfLine
  split
  · next done =>
      have empty : cursor.upcoming = [] := by simpa [hasNext] using done
      exact ⟨start, Nat.le_refl _, along, fun more => absurd empty more⟩
  · next more =>
      have nonempty : cursor.upcoming ≠ [] := by
        intro empty
        simp [hasNext, empty] at more
      split
      · obtain ⟨token, rest, next⟩ := List.exists_cons_of_ne_nil nonempty
        obtain ⟨stop, spans, behind⟩ := along.shift next
        rw [advance_eq next]
        exact ⟨stop, Nat.le_of_lt spans.lt, behind, fun _ => spans.lt⟩
      · obtain ⟨stop, further, longer, ended⟩ :=
          (along.record .unexpectedEndOfLine [.newline]).skipLineFrom _ rfl
        exact ⟨stop, further, ended, fun _ => longer nonempty⟩

theorem skipBlock (along : cursor.Along lines start) (indent : Nat) :
    ∃ stop, start ≤ stop ∧ (cursor.skipBlock indent).Along lines stop := by
  fun_induction Cursor.skipBlock indent cursor generalizing start with
  | case1 =>
      rename_i ih
      obtain ⟨middle, one, skipped⟩ := along.skipEmptyLines
      obtain ⟨further, two, behind⟩ := skipped.skipLine
      obtain ⟨stop, three, ended⟩ := ih behind
      exact ⟨stop, by omega, ended⟩
  | case2 => exact along.skipEmptyLines

end Along

end Cursor

/-! ## Parses -/

namespace Parse

/-- What a parse makes from a cursor at `start`, told by where the cursor stands behind it. -/
def Moves (lines : LineMap) (start : Nat) (outcome : Nat → α → Prop) (parse : Parse α) : Prop :=
  ∀ cursor : Cursor, cursor.Along lines start →
    ∃ stop, start ≤ stop ∧ (parse cursor).2.Along lines stop ∧
      ∀ value ∈ (parse cursor).1, outcome stop value

namespace Moves

variable {α β : Type} {middle outcome : Nat → α → Prop} {final : Nat → β → Prop}

theorem pure {value : α} (holds : outcome start value) :
    Moves lines start outcome (pure value) := by
  refine fun cursor along => ⟨start, Nat.le_refl _, along, ?_⟩
  rintro _ ⟨⟩
  exact holds

theorem fail : Moves lines start outcome (fail : Parse α) :=
  fun _ along => ⟨start, Nat.le_refl _, along, by simp [Parse.fail]⟩

theorem bind {parse : Parse α} {next : α → Parse β} (begins : Moves lines start outcome parse)
    (goesOn : ∀ value stop, start ≤ stop → outcome stop value →
      Moves lines stop final (next value)) : Moves lines start final (parse >>= next) := by
  intro cursor along
  obtain ⟨middle, further, behind, made⟩ := begins cursor along
  cases found : (parse cursor).1 with
  | none =>
      rw [bind_none found]
      exact ⟨middle, further, behind, by simp⟩
  | some value =>
      rw [bind_some found]
      obtain ⟨stop, longer, ended, result⟩ :=
        goesOn value middle further (made value found) _ behind
      exact ⟨stop, Nat.le_trans further longer, ended, result⟩

theorem mono {parse : Parse α} (moves : Moves lines start middle parse)
    (weaker : ∀ stop value, start ≤ stop → middle stop value → outcome stop value) :
    Moves lines start outcome parse := by
  intro cursor along
  obtain ⟨stop, further, behind, made⟩ := moves cursor along
  exact ⟨stop, further, behind, fun value found => weaker stop value further (made value found)⟩

theorem attempt {parse : Parse α} (moves : Moves lines start outcome parse) :
    Moves lines start (fun stop result => ∀ value ∈ result, outcome stop value)
      parse.attempt := by
  intro cursor along
  obtain ⟨stop, further, behind, made⟩ := moves cursor along
  refine ⟨stop, further, behind, ?_⟩
  rintro _ ⟨⟩
  exact made

theorem look {next : Cursor → Parse α}
    (moves : ∀ cursor, Moves lines start outcome (next cursor)) :
    Moves lines start outcome (look >>= next) :=
  fun cursor along => moves cursor cursor along

theorem move {change : Cursor → Cursor}
    (moves : ∀ cursor : Cursor, cursor.Along lines start →
      ∃ stop, start ≤ stop ∧ (change cursor).Along lines stop) :
    Moves lines start (fun _ _ => True) (move change) := by
  intro cursor along
  obtain ⟨stop, further, behind⟩ := moves cursor along
  exact ⟨stop, further, behind, fun _ _ => trivial⟩

theorem text (token : Token) : Moves lines start (fun _ _ => True) (text token) :=
  fun _ along => ⟨start, Nat.le_refl _, along, fun _ _ => trivial⟩

theorem spanFrom (ordered : first ≤ start) :
    Moves lines start (fun stop span => span = lines.spanAt first stop)
      (spanFrom (lines.positionAt first)) := by
  intro cursor along
  refine ⟨start, Nat.le_refl _, along, ?_⟩
  rintro _ ⟨⟩
  have current := along.current
  unfold Cursor.spanFrom LineMap.spanAt
  cases equal : cursor.current with
  | none =>
      rw [equal] at current
      simp only [Option.elim_none] at current
      have offset := congrArg Position.offset current
      have inside := along.inside
      simp only [Position.origin, LineMap.positionAt_offset] at offset
      obtain ⟨rfl, rfl⟩ : first = 0 ∧ start = 0 := by omega
      rfl
  | some token =>
      rw [equal] at current
      simp only [Option.elim_some] at current
      simp only [current, LineMap.positionAt_max ordered]

/-- The span from a token on is that of a node around whatever lies behind the token. -/
theorem nodeFrom {head : Token} (taken : head.Spans lines first last) (behind : last ≤ start) :
    Moves lines start (fun stop span => ∀ trees, AllLie lines last stop trees →
      (SpanTree.node span trees).Lies lines first stop) (Parse.spanFrom head.start) := by
  obtain ⟨begins, later, ordered, equal⟩ := taken
  -- The cursor stands behind the token, so its end is the later one of the two.
  rw [show head.start = lines.positionAt begins from congrArg Span.start equal]
  refine mono (spanFrom (by omega)) fun stop span further same trees inside => ?_
  subst same
  exact .node (inside.mono (Nat.le_of_lt ordered) (Nat.le_refl _)) later (by omega)
    (Nat.le_refl _)

private theorem takeIf (accepts : Cursor → Bool) (expected : List Kind) :
    Moves lines start (fun stop token => token.Spans lines start stop)
      (fun cursor => cursor.takeIf (accepts cursor) expected) := by
  intro cursor along
  dsimp only [Cursor.takeIf]
  split
  · exact along.advance
  · exact ⟨start, Nat.le_refl _, along.record _ _, by simp⟩

theorem token (kind : Kind) :
    Moves lines start (fun stop token => token.Spans lines start stop) (token kind) :=
  takeIf (·.test kind) [kind]

theorem name : Moves lines start (fun stop token => token.Spans lines start stop) name :=
  takeIf Cursor.testName [.identifier]

theorem anyToken (kinds : List Kind) :
    Moves lines start (fun stop token => token.Spans lines start stop) (anyToken kinds) :=
  takeIf (fun cursor => kinds.any cursor.test) kinds

theorem tokenIf (kind : Kind) :
    Moves lines start (fun stop token => ∀ one ∈ token, one.Spans lines start stop)
      (tokenIf kind) := by
  refine attempt fun cursor along => ?_
  unfold Cursor.optionalToken
  split
  · exact along.advance
  · exact ⟨start, Nat.le_refl _, along, by simp⟩

theorem require {rule : Rule α} (moves : Moves lines start outcome rule.parse) :
    Moves lines start outcome rule.require := by
  intro cursor along
  unfold Rule.require
  split
  · exact moves cursor along
  · exact ⟨start, Nat.le_refl _, along.recordUnexpected, by simp⟩

theorem optional {rule : Rule α} (moves : Moves lines start outcome rule.parse) :
    Moves lines start (fun stop result => ∀ value ∈ result, outcome stop value)
      rule.optional := by
  intro cursor along
  unfold Rule.optional
  split
  · exact moves.attempt cursor along
  · refine ⟨start, Nat.le_refl _, along, ?_⟩
    rintro _ ⟨⟩
    simp

theorem choice {rules : List (Rule α)}
    (moves : ∀ rule ∈ rules, Moves lines start outcome rule.parse) :
    Moves lines start outcome (Rule.choice rules).parse := by
  intro cursor along
  cases found : rules.find? (·.starts cursor) with
  | some rule =>
      rw [Rule.choice_some found]
      exact moves rule (List.mem_of_find?_eq_some found) cursor along
  | none =>
      rw [Rule.choice_none found]
      exact ⟨start, Nat.le_refl _, along.recordUnexpected, by simp⟩

/-! ## Lists -/

variable {item : Parse α} {trees : α → List SpanTree}

private theorem separated (advances : item.Advances)
    (moves : ∀ start, Moves lines start
      (fun stop value => AllLie lines start stop (trees value)) item)
    (cursor : Cursor) (along : cursor.Along lines start) :
    ∃ stop, start ≤ stop ∧ (separated item advances cursor).2.Along lines stop ∧
      AllLie lines start stop ((separated item advances cursor).1.flatMap trees) := by
  fun_induction Parse.separated item advances cursor generalizing start with
  | case1 cursor behind found =>
      obtain ⟨stop, further, ended, -⟩ := moves start cursor along
      rw [found] at ended
      exact ⟨stop, further, ended, .nil⟩
  | case2 cursor value behind found tested values last_ equal ih =>
      obtain ⟨middle, one, went, made⟩ := moves start cursor along
      rw [found] at went made
      obtain ⟨next, two, comma, -⟩ := went.advance
      obtain ⟨stop, three, ended, rest⟩ := ih comma
      rw [equal] at ended rest
      refine ⟨stop, by omega, ended, ?_⟩
      rw [List.flatMap_cons]
      exact ((made value rfl).mono (Nat.le_refl _) (by omega)).append
        (rest.mono (by omega) (Nat.le_refl _))
  | case3 cursor value behind found tested =>
      obtain ⟨middle, one, went, made⟩ := moves start cursor along
      rw [found] at went made
      obtain ⟨stop, two, ended, -⟩ := token (.punctuation .closeParen) behind went
      refine ⟨stop, by omega, ended, ?_⟩
      rw [List.flatMap_singleton]
      exact (made value rfl).mono (Nat.le_refl _) (by omega)

theorem parenthesizedList (advances : item.Advances)
    (moves : ∀ start, Moves lines start
      (fun stop value => AllLie lines start stop (trees value)) item) :
    Moves lines start (fun stop values => AllLie lines start stop (values.flatMap trees))
      (parenthesizedList item advances) := by
  refine .bind (tokenIf _) fun opening middle one _ => ?_
  cases opening with
  | none => exact .pure .nil
  | some _ =>
      refine .bind (tokenIf _) fun closing next two _ => ?_
      cases closing with
      | some _ => exact .pure .nil
      | none =>
          intro cursor along
          obtain ⟨stop, further, ended, made⟩ := separated advances moves cursor along
          refine ⟨stop, further, ended, ?_⟩
          rintro _ ⟨⟩
          exact made.mono (by omega) (Nat.le_refl _)

end Moves

end Parse

end NovelScript
