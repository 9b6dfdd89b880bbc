import NovelScript.Proofs.DeepExpressions
import NovelScript.Proofs.DocumentAcceptance

/-!
# Lines that nest too deep

A statement line that needs more levels than are left has a first expression that does.  Everything
in front of it is read as on any other line; the expression is given up with all that stands behind
it, and the statement is kept without it.  Only a label asks for more on its line then, and misses
its closing parenthesis and its colon.
-/

namespace NovelScript

open Computability Words

namespace Words

variable {levels : Nat} {word : List Token}

/-! ## Up to the first expression too deep -/

/-- A list whose items need more levels has a first item that does, behind items that do not. -/
theorem beyond_separated {item : Nat → Language Token} {more : Nat}
    (member : word ∈ separated (item more) * mark .closeParen)
    (lacks : word ∉ separated (item levels) * mark .closeParen) :
    ∃ count, ∃ front ∈ (item levels * mark .comma) ^ count, ∃ deep ∈ beyond item levels,
      ∃ back, word = front ++ deep ++ back := by
  induction length : word.length using Nat.strong_induction_on generalizing word with
  | h size ih =>
      rw [separated_close] at member lacks
      rcases member with ⟨first, inItem, _, close, rfl⟩ |
        ⟨first, inItem, _, ⟨_, ⟨comma, rfl, isComma⟩, later, inList, rfl⟩, rfl⟩
      · have deep : first ∉ item levels := fun shallow =>
          lacks (.inl ⟨first, shallow, _, close, rfl⟩)
        exact ⟨0, [], rfl, first, ⟨⟨more, inItem⟩, deep⟩, _, rfl⟩
      · by_cases shallow : first ∈ item levels
        · have further : later ∉ separated (item levels) * mark .closeParen := fun whole =>
            lacks (.inr ⟨first, shallow, _,
              ⟨[comma], ⟨comma, rfl, isComma⟩, later, whole, rfl⟩, rfl⟩)
          obtain ⟨count, front, before, deep, isDeep, back, rfl⟩ :=
            ih later.length (by simp at length; omega) inList further rfl
          refine ⟨count + 1, first ++ [comma] ++ front, ?_, deep, isDeep, back, by simp⟩
          rw [pow_succ']
          exact ⟨_, ⟨first, shallow, [comma], ⟨comma, rfl, isComma⟩, rfl⟩, front, before, rfl⟩
        · exact ⟨0, [], rfl, first, ⟨⟨more, inItem⟩, shallow⟩, _, rfl⟩

theorem beyond_parenthesized {item : Nat → Language Token} {more : Nat}
    (member : word ∈ parenthesized (item more)) (lacks : word ∉ parenthesized (item levels)) :
    ∃ opening, opening.kind = .punctuation .openParen ∧
      ∃ count, ∃ front ∈ (item levels * mark .comma) ^ count, ∃ deep ∈ beyond item levels,
        ∃ back, word = opening :: (front ++ deep ++ back) := by
  rcases member with empty | ⟨_, ⟨_, ⟨opening, rfl, isOpen⟩, items, list, rfl⟩, close, isClose, rfl⟩
  · exact absurd (.inl empty) lacks
  · have isOpening : [opening] ∈ mark .openParen := ⟨opening, rfl, isOpen⟩
    rcases list with empty | list
    · exact absurd (.inr ⟨_, ⟨_, isOpening, items, .inl empty, rfl⟩, close, isClose, rfl⟩) lacks
    · have further : items ++ close ∉ separated (item levels) * mark .closeParen := by
        rintro ⟨shallow, inList, closes, isMark, equal⟩
        refine lacks (.inr ⟨_, ⟨_, isOpening, shallow, .inr inList, rfl⟩, closes, isMark, ?_⟩)
        simpa using equal
      obtain ⟨count, front, before, deep, isDeep, back, equal⟩ :=
        beyond_separated ⟨items, list, close, isClose, rfl⟩ further
      refine ⟨opening, isOpen, count, front, before, deep, isDeep, back, ?_⟩
      rw [← equal]
      simp

theorem beyond_parameter (member : word ∈ beyond parameter levels) :
    ∃ name assign, name.kind = .identifier ∧ assign.kind = .operator .assign ∧
      ∃ deep ∈ beyond expression levels, word = name :: assign :: deep := by
  obtain ⟨⟨more, _, ⟨name, rfl, isName⟩, _,
    default | ⟨_, ⟨assign, rfl, isAssign⟩, deep, inside, rfl⟩, rfl⟩, lacks⟩ := member
  · exact absurd ⟨[name], ⟨name, rfl, isName⟩, _, .inl default, rfl⟩ lacks
  · refine ⟨name, assign, isName, isAssign, deep, ⟨⟨more, inside⟩, fun shallow => lacks ?_⟩, rfl⟩
    exact ⟨[name], ⟨name, rfl, isName⟩, _,
      .inr ⟨[assign], ⟨assign, rfl, isAssign⟩, deep, shallow, rfl⟩, rfl⟩

end Words

theorem Cursor.Fits.shift {levels : Nat} {cursor : Cursor} (fits : cursor.Fits levels)
    {token : Token} {rest : List Token} (next : cursor.upcoming = token :: rest) :
    (cursor.shift token rest).Fits levels :=
  ⟨fits.levels_eq, fun other member =>
    fits.wellFormed other (next ▸ List.mem_cons_of_mem token member)⟩

namespace Parse

variable {α β : Type} {levels count : Nat} {words : Language Token} {follow : List Token → Prop}
  {cursor : Cursor}

theorem attempt_none {parse : Parse α} {behind : Cursor} (failed : parse cursor = (none, behind)) :
    parse.attempt cursor = (some none, behind) := by
  simp only [attempt, failed]

theorem bind_eq {first : Parse α} {next : α → Parse β} {value : α} {behind : Cursor}
    (found : first cursor = (some value, behind)) :
    (first >>= next) cursor = next value behind := by
  rw [bind_some (congrArg Prod.fst found), found]

/-- A word that a parse accepts is taken, and nothing else changes. -/
theorem Accepts.takes {parse : Parse α} (accepts : parse.Accepts levels words follow)
    (fits : cursor.Fits levels) {word rest : List Token} (member : word ∈ words)
    (split : cursor.upcoming = word ++ rest) (holds : follow rest) :
    ∃ value behind, parse cursor = (some value, behind) ∧ behind.Fits levels ∧
      behind.upcoming = rest ∧ behind.errors = cursor.errors := by
  obtain ⟨clean, lands⟩ := accepts.complete cursor fits word member rest split holds
  obtain ⟨⟨value, found⟩, -⟩ := accepts.sound cursor fits clean
  exact ⟨value, (parse cursor).2, Prod.ext found rfl,
    fits.of_trace (accepts.bound.trace cursor), lands, clean⟩

/-- One round of a list, by how its item ends. -/
theorem separated_rounds (item : Parse α) (advances : item.Advances) (cursor : Cursor) :
    separated item advances cursor =
      match item cursor with
      | (none, behind) => ([], behind)
      | (some value, behind) =>
          if behind.test (.punctuation .comma) = true then
            (value :: (separated item advances behind.advance.2).1,
              (separated item advances behind.advance.2).2)
          else ([value], (behind.requireToken (.punctuation .closeParen)).2) := by
  rw [separated]
  split
  · next behind found => simp only [found]
  · next value behind found => simp only [found]

/-- Items with commas behind them are read one by one, and the list goes on with what follows. -/
theorem separated_run {item : Parse α} (accepts : item.Accepts levels words follow)
    (advances : item.Advances)
    (follows : ∀ token rest, token.kind = .punctuation .comma → follow (token :: rest))
    (fits : cursor.Fits levels) {front rest : List Token}
    (member : front ∈ (words * mark .comma) ^ count) (split : cursor.upcoming = front ++ rest) :
    ∃ values behind, values.length = count ∧ behind.Fits levels ∧ behind.upcoming = rest ∧
      behind.errors = cursor.errors ∧
      separated item advances cursor =
        (values ++ (separated item advances behind).1, (separated item advances behind).2) := by
  induction count generalizing cursor front with
  | zero =>
      obtain rfl : front = [] := member
      exact ⟨[], cursor, rfl, fits, split, rfl, rfl⟩
  | succ count ih =>
      rw [pow_succ'] at member
      obtain ⟨_, ⟨word, inWords, _, ⟨comma, rfl, isComma⟩, rfl⟩, later, more, rfl⟩ := member
      obtain ⟨value, behind, found, fitsBehind, next, clean⟩ :=
        accepts.takes fits inWords
          (show cursor.upcoming = word ++ comma :: (later ++ rest) by simpa using split)
          (follows _ _ isComma)
      have tested : behind.test (.punctuation .comma) = true :=
        fitsBehind.test_iff.2 ⟨comma, by simp [next], isComma⟩
      obtain ⟨values, last, length, fitsLast, lands, same, further⟩ :=
        ih (fitsBehind.shift next) more rfl
      refine ⟨value :: values, last, by rw [List.length_cons, length], fitsLast, lands,
        same.trans clean, ?_⟩
      rw [separated_rounds, found]
      simp only [if_pos tested, Cursor.advance_eq next, further, List.cons_append]

end Parse

namespace Grammar

open Parse

variable {levels : Nat} {cursor : Cursor}

/-! ## Statements cut short -/

/-- What is left of a statement whose line goes up to a first expression that needs more levels: a
return without a value, a pause without a duration, a call with the arguments in front only, and a
label with the parameters in front and one more that has no default. -/
inductive CutShort (levels : Nat) : List Token → Statement → Prop
  | «return» {front : List Token} {span : Span} :
      front ∈ keyword .«return» → CutShort levels front (.return none span)
  | pause {front : List Token} {span : Span} :
      front ∈ keyword .pause → CutShort levels front (.pause none span)
  | call {front : List Token} {target : Identifier} {arguments : List Expression} {span : Span} :
      front ∈ keyword .call * nameExcept [.expression, .screen] * mark .openParen *
        (Words.expression levels * mark .comma) ^ arguments.length →
      CutShort levels front (.call ⟨some target, arguments, none, none, none, span⟩)
  | label {front : List Token} {name : Identifier} {parameters : List Parameter}
      {last : Identifier} {body : List Statement} {span : Span} :
      front ∈ keyword .label * Words.name * mark .openParen *
        (Words.parameter levels * mark .comma) ^ parameters.length *
        (kind .identifier * operator .assign) →
      CutShort levels front (.label ⟨some name, parameters ++ [⟨last, none⟩]⟩ body span)

/-- The rule that reads a line is the one that its first token opens. -/
private theorem lineStatement_eq (fits : cursor.Fits levels) {head : Token} {rest : List Token}
    (next : cursor.upcoming = head :: rest) {kind : Kind} {rule : Rule Statement}
    (member : (kind, rule) ∈ openers.zip lineForms) (same : head.kind = kind) :
    lineStatement.parse cursor = rule.parse cursor := by
  have tests (other : Kind) [other.IsPlain] : cursor.test other = decide (head.kind = other) := by
    rw [Bool.eq_iff_iff, fits.test_iff]
    simp [next]
  have starts : lineForms.find? (·.starts cursor) = some rule := by
    simp only [openers, lineForms, List.cons_append, List.nil_append, List.zip_cons_cons,
      List.zip_nil_left, List.mem_cons, Prod.mk.injEq, List.not_mem_nil, or_false] at member ⊢
    rcases member with ⟨rfl, rfl⟩ | ⟨rfl, rfl⟩ | ⟨rfl, rfl⟩ | ⟨rfl, rfl⟩ | ⟨rfl, rfl⟩ | ⟨rfl, rfl⟩ |
      ⟨rfl, rfl⟩ | ⟨rfl, rfl⟩ | ⟨rfl, rfl⟩ <;>
      simp [define_opens.starts_eq, defaultValue_opens.starts_eq, labelLine_opens.starts_eq,
        jump_opens.starts_eq, call_opens.starts_eq, return_opens.starts_eq, pass_opens.starts_eq,
        pause_opens.starts_eq, pythonLine_opens.starts_eq, tests, same]
  exact Rule.choice_some starts

section Forms

variable {count : Nat} {front deep back tail : List Token} {head : Token}

private theorem test_at_end (ends : LineEnd tail) (lands : cursor.upcoming = tail) {kind : Kind}
    (other : kind ≠ .newline) : ¬cursor.test kind = true := by
  intro tested
  obtain ⟨token, rest, next, has⟩ := Cursor.next_of_peek tested
  exact other ((ends token (by rw [← lands, next]; rfl) kind).1 has)

/-- Behind an expression given up nothing more is found on the line. -/
private theorem GivenUp.token {missing : List Punctuation} {first last : Cursor}
    (given : GivenUp levels deep tail missing first last) (ends : LineEnd tail)
    (mark : Punctuation) :
    ∃ behind, Parse.token (.punctuation mark) last = (none, behind) ∧
      GivenUp levels deep tail (missing ++ [mark]) first behind := by
  refine ⟨last.record .unexpectedToken [.punctuation mark], ?_, given.lands, ?_⟩
  · rw [Parse.token, Cursor.requireToken, Cursor.takeIf,
      if_neg (test_at_end ends given.lands (by simp))]
  · obtain ⟨current, opening, place, kind, errors⟩ := given.told
    refine ⟨current, opening, place, kind, ?_⟩
    simp [Cursor.record, errors, Cursor.peek?, given.lands]

private theorem optional_beyond (fits : cursor.Fits levels)
    (member : deep ∈ beyond Words.expression levels)
    (split : cursor.upcoming = deep ++ back ++ tail)
    (inside : ∀ token ∈ deep ++ back, token.hasKind .newline = false) (ends : LineEnd tail) :
    ∃ last, expression.optional cursor = (some none, last) ∧
      GivenUp levels deep tail [] cursor last := by
  obtain ⟨starts, last, failed, given⟩ := expression_beyond fits member split inside ends
  refine ⟨last, ?_, given⟩
  rw [Rule.optional, if_pos starts]
  exact attempt_none failed

private theorem require_beyond (fits : cursor.Fits levels)
    (member : deep ∈ beyond Words.expression levels)
    (split : cursor.upcoming = deep ++ back ++ tail)
    (inside : ∀ token ∈ deep ++ back, token.hasKind .newline = false) (ends : LineEnd tail) :
    ∃ last, expression.require cursor = (none, last) ∧
      GivenUp levels deep tail [] cursor last := by
  obtain ⟨starts, last, failed, given⟩ := expression_beyond fits member split inside ends
  exact ⟨last, (if_pos starts).trans failed, given⟩

private theorem name_taken (fits : cursor.Fits levels) {target : Token} (isName : IsName target)
    {rest : List Token} (split : cursor.upcoming = target :: rest) :
    ∃ name behind, nameIdentifier cursor = (some name, behind) ∧ behind.Fits levels ∧
      behind.upcoming = rest ∧ behind.errors = cursor.errors :=
  have accepts : nameIdentifier.Accepts levels Words.name fun _ => True := nameIdentifier_accepts
  accepts.takes fits ⟨target, rfl, isName⟩ split trivial

/-- A list is read up to the item with the expression too deep, which ends it one way or another. -/
private theorem parenthesizedList_run {α : Type} {item : Parse α} {words : Language Token}
    {follow : List Token → Prop} {opens : Token → Prop}
    (accepts : item.Accepts levels words follow) (advances : item.Advances)
    (follows : ∀ token rest, token.kind = .punctuation .comma → follow (token :: rest))
    (begins : Begins opens words)
    (apart : ∀ token, opens token → token.kind ≠ .punctuation .closeParen)
    (fits : cursor.Fits levels) {opening : Token} (isOpen : opening.kind = .punctuation .openParen)
    (member : front ∈ (words * mark .comma) ^ count) (first : ∃ token ∈ deep.head?, opens token)
    (split : cursor.upcoming = opening :: (front ++ (deep ++ back))) :
    ∃ values behind, values.length = count ∧ behind.Fits levels ∧
      behind.upcoming = deep ++ back ∧ behind.errors = cursor.errors ∧
      parenthesizedList item advances cursor =
        (some (values ++ (separated item advances behind).1),
          (separated item advances behind).2) := by
  have inner : ∃ token ∈ (front ++ (deep ++ back)).head?, opens token := by
    cases count with
    | zero =>
        obtain rfl : front = [] := member
        obtain ⟨token, next, holds⟩ := first
        exact ⟨token, by simp [Option.mem_def.1 next], holds⟩
    | succ count =>
        rw [pow_succ'] at member
        obtain ⟨token, next, holds⟩ := begins.mul.mul front member
        exact ⟨token, by simp [Option.mem_def.1 next], holds⟩
  have fitsInside := fits.shift split
  have opened : cursor.test (.punctuation .openParen) = true :=
    fits.test_iff.2 ⟨opening, by simp [split], isOpen⟩
  have notClosed : ¬(cursor.shift opening (front ++ (deep ++ back))).test
      (.punctuation .closeParen) = true := by
    rw [fitsInside.test_iff]
    rintro ⟨token, next, isClose⟩
    obtain ⟨other, same, holds⟩ := inner
    obtain rfl := Option.some.inj (Eq.trans (Eq.symm same) next)
    exact apart other holds isClose
  obtain ⟨values, behind, length, fitsBehind, lands, clean, run⟩ :=
    separated_run accepts advances follows fitsInside member rfl
  refine ⟨values, behind, length, fitsBehind, lands, clean, ?_⟩
  rw [parenthesizedList, tokenIf_some split opened]
  simp only []
  rw [tokenIf_none notClosed]
  simp only [run]

private theorem callTail_beyond (fits : cursor.Fits levels) {opening : Token}
    (isOpen : opening.kind = .punctuation .openParen)
    (before : front ∈ (Words.expression levels * mark .comma) ^ count)
    (member : deep ∈ beyond Words.expression levels)
    (split : cursor.upcoming = opening :: (front ++ (deep ++ back ++ tail)))
    (inside : ∀ token ∈ deep ++ back, token.hasKind .newline = false) (ends : LineEnd tail) :
    ∃ arguments last, arguments.length = count ∧
      callTail cursor = (some (arguments, none), last) ∧
      GivenUp levels deep tail [] cursor last := by
  have first : ∃ token ∈ deep.head?, OpensExpression token := by
    obtain ⟨token, _, _, rfl, isOpen, -⟩ := beyond_expression_cases member
    exact ⟨token, rfl, .inr (.inl isOpen)⟩
  obtain ⟨arguments, behind, length, fitsBehind, lands, clean, run⟩ :=
    parenthesizedList_run (expression_accepts levels).require
      (Rule.require_advances expression_advances)
      (fun token rest isComma other next => by cases next; simp [isComma])
      (expression_accepts levels).begins (fun _ opens => opens.kind_ne (.inr rfl)) fits isOpen
      before first (by rw [split, List.append_assoc])
  obtain ⟨last, failed, given⟩ :=
    require_beyond fitsBehind member (by rw [lands, List.append_assoc]) inside ends
  have ended : separated expression.require (Rule.require_advances expression_advances) behind =
      ([], last) := by
    rw [separated_rounds, failed]
  rw [ended, List.append_nil] at run
  refine ⟨arguments, last, length, ?_, given.of_errors clean⟩
  rw [callTail, bind_eq run, tokenIf_none (test_at_end ends given.lands (by simp))]
  rfl

private theorem call_beyond (fits : cursor.Fits levels) {target opening : Token}
    (opens : head.kind = .keyword .call)
    (isTarget : [target] ∈ nameExcept [.expression, .screen])
    (isOpen : opening.kind = .punctuation .openParen)
    (before : front ∈ (Words.expression levels * mark .comma) ^ count)
    (member : deep ∈ beyond Words.expression levels)
    (split : cursor.upcoming = head :: target :: opening :: (front ++ (deep ++ back ++ tail)))
    (inside : ∀ token ∈ deep ++ back, token.hasKind .newline = false) (ends : LineEnd tail) :
    ∃ name arguments span last, arguments.length = count ∧
      call.parse cursor =
        (some (.call ⟨some name, arguments, none, none, none, span⟩), last) ∧
      GivenUp levels deep tail [] cursor last := by
  have fitsTarget := fits.shift split
  obtain ⟨_, same, isName, other⟩ := isTarget
  cases same
  have notKeyword {word : Keyword} (among : word ∈ [Keyword.expression, .screen]) :
      ¬(cursor.shift head (target :: opening :: (front ++ (deep ++ back ++ tail)))).test
        (.keyword word) = true := by
    rw [fitsTarget.test_iff]
    rintro ⟨token, next, same⟩
    cases next
    exact other word among same
  obtain ⟨name, behind, named, fitsBehind, lands, clean⟩ :=
    name_taken fitsTarget isName rfl
  obtain ⟨arguments, last, length, parsed, given⟩ :=
    callTail_beyond fitsBehind isOpen before member lands inside ends
  refine ⟨name, arguments, last.spanFrom head.start, last, length, ?_, given.of_errors clean⟩
  simp only [call, Rule.startingAt]
  rw [bind_eq (token_eq split (by simp [Token.hasKind, opens])),
    tokenIf_none (notKeyword (by simp))]
  simp only []
  rw [tokenIf_none (notKeyword (by simp))]
  simp only []
  rw [attempt_bind_eq (congrArg Prod.fst named), bind_eq named]
  simp only []
  rw [bind_eq parsed]
  rfl

private theorem parameter_beyond (fits : cursor.Fits levels) {name assign : Token}
    (isName : name.kind = .identifier) (isAssign : assign.kind = .operator .assign)
    (member : deep ∈ beyond Words.expression levels)
    (split : cursor.upcoming = name :: assign :: (deep ++ back ++ tail))
    (inside : ∀ token ∈ deep ++ back, token.hasKind .newline = false) (ends : LineEnd tail) :
    ∃ found last, parameter cursor = (some ⟨found, none⟩, last) ∧
      GivenUp levels deep tail [] cursor last := by
  have fitsAssign := fits.shift split
  have tested : (cursor.shift name (assign :: (deep ++ back ++ tail))).test (.operator .assign) =
      true := fitsAssign.test_iff.2 ⟨assign, rfl, isAssign⟩
  obtain ⟨last, failed, given⟩ :=
    require_beyond (fitsAssign.shift rfl) member rfl inside ends
  refine ⟨⟨name.value cursor.source, name.span⟩, last, ?_, given.of_errors rfl⟩
  have named : identifier name (cursor.shift name (assign :: (deep ++ back ++ tail))) =
      (some ⟨name.value cursor.source, name.span⟩,
        cursor.shift name (assign :: (deep ++ back ++ tail))) := rfl
  rw [parameter, bind_eq (token_eq split (by simp [Token.hasKind, isName])), bind_eq named,
    tokenIf_some rfl tested]
  simp only []
  rw [bind_eq (attempt_none failed)]
  rfl

/-- The label misses the parenthesis and the colon that would have followed on its line. -/
private theorem labelLine_beyond (fits : cursor.Fits levels) {target opening : Token}
    (opens : head.kind = .keyword .label) (isName : IsName target)
    (isOpen : opening.kind = .punctuation .openParen)
    (before : front ∈ (Words.parameter levels * mark .comma) ^ count) {name assign : Token}
    (isParameter : name.kind = .identifier) (isAssign : assign.kind = .operator .assign)
    (member : deep ∈ beyond Words.expression levels)
    (split : cursor.upcoming =
      head :: target :: opening :: (front ++ (name :: assign :: deep ++ back ++ tail)))
    (inside : ∀ token ∈ deep ++ back, token.hasKind .newline = false) (ends : LineEnd tail) :
    ∃ found parameters final span last, parameters.length = count ∧
      labelLine.parse cursor =
        (some (.label ⟨some found, parameters ++ [⟨final, none⟩]⟩ [] span), last) ∧
      GivenUp levels deep tail [.closeParen, .colon] cursor last := by
  obtain ⟨found, place, named, fitsPlace, lands, clean⟩ :=
    name_taken (fits.shift split) isName rfl
  have first : ∃ token ∈ (name :: assign :: deep).head?, token.kind = .identifier :=
    ⟨name, rfl, isParameter⟩
  obtain ⟨parameters, behind, length, fitsBehind, next, same, run⟩ :=
    parenthesizedList_run parameter_accepts parameter_advances
      (fun token rest isComma other next => by cases next; simp [isComma])
      (begins_one _).mul (fun token opens => by simp [opens]) fitsPlace isOpen before
      first (by rw [lands, List.append_assoc])
  obtain ⟨final, last, parsed, given⟩ :=
    parameter_beyond fitsBehind isParameter isAssign member (by simpa using next) inside ends
  obtain ⟨unclosed, closing, givenClosing⟩ := given.token ends .closeParen
  obtain ⟨stop, colon, givenColon⟩ := givenClosing.token ends .colon
  have ended : separated parameter parameter_advances behind = ([⟨final, none⟩], unclosed) := by
    rw [separated_rounds, parsed]
    simp only [if_neg (test_at_end ends given.lands (by simp : Kind.punctuation .comma ≠ .newline))]
    exact congrArg (Prod.mk [(⟨final, none⟩ : Parameter)]) (congrArg Prod.snd closing)
  rw [ended] at run
  refine ⟨found, parameters, final, stop.spanFrom head.start, stop, length, ?_,
    givenColon.of_errors (same.trans clean)⟩
  have headed : labelHead (cursor.shift head
        (target :: opening :: (front ++ (name :: assign :: deep ++ back ++ tail)))) =
      (some ⟨some found, parameters ++ [⟨final, none⟩]⟩, stop) := by
    rw [labelHead, attempt_bind_eq (congrArg Prod.fst named), bind_eq named, bind_eq run,
      bind_eq (attempt_none colon)]
    rfl
  simp only [labelLine, Rule.startingAt]
  rw [bind_eq (token_eq split (by simp [Token.hasKind, opens])), bind_eq headed]
  rfl

/-- What a line misses behind an expression given up, by the kind that opens it. -/
def missed (opener : Kind) : List Punctuation :=
  if opener = .keyword .label then [.closeParen, .colon] else []

/-- A line is given up at the first expression that needs more levels, and its statement is kept
without it. -/
def EndsShort (levels : Nat) (line tail : List Token) (statement : Statement)
    (first last : Cursor) : Prop :=
  ∃ front deep back, line = front ++ deep ++ back ∧ CutShort levels front statement ∧
    deep ∈ beyond Words.expression levels ∧
    GivenUp levels deep tail (missed statement.opener) first last

section Lines

variable {line : List Token} (fits : cursor.Fits levels) (split : cursor.upcoming = line ++ tail)
  (inside : ∀ token ∈ line, token.hasKind .newline = false) (ends : LineEnd tail)

include fits split inside ends

/-- A return and a pause are read in the same way: a keyword and then an expression or nothing. -/
private theorem headed_endsShort {word : Keyword} (rule : Rule Statement)
    (make : Option Expression → Span → Statement)
    (form : (.keyword word, rule) ∈ openers.zip lineForms)
    (reads : rule.parse = do
      let head ← token (.keyword word)
      let value ← expression.optional
      pure (make value (← spanFrom head.start)))
    (plain : ∀ span, missed (make none span).opener = [])
    (short : ∀ front span, front ∈ keyword word → CutShort levels front (make none span))
    {more : Nat} (member : line ∈ keyword word * Words.optional (Words.expression more))
    (lacks : line ∉ keyword word * Words.optional (Words.expression levels)) :
    ∃ statement last, lineStatement.parse cursor = (some statement, last) ∧
      EndsShort levels line tail statement cursor last := by
  obtain ⟨_, ⟨head, rfl, opens⟩, deep, empty | expression_, rfl⟩ := member
  · exact absurd ⟨_, ⟨head, rfl, opens⟩, deep, .inl empty, rfl⟩ lacks
  · have further : deep ∈ beyond Words.expression levels :=
      ⟨⟨more, expression_⟩, fun shallow => lacks ⟨_, ⟨head, rfl, opens⟩, deep, .inr shallow, rfl⟩⟩
    have next : cursor.upcoming = head :: (deep ++ [] ++ tail) := by simpa using split
    obtain ⟨last, parsed, given⟩ := optional_beyond (fits.shift next) further rfl
      (fun token among => inside token (by simp at among; simp [among])) ends
    refine ⟨make none (last.spanFrom head.start), last, ?_, [head], deep, [], by simp,
      short _ _ ⟨head, rfl, opens⟩, further, ?_⟩
    · rw [lineStatement_eq fits split form opens, reads,
        bind_eq (token_eq next (by simp [Token.hasKind, opens])), bind_eq parsed]
      rfl
    · rw [plain]
      exact given.of_errors rfl

private theorem call_endsShort {more : Nat} (member : line ∈ Words.call more)
    (lacks : line ∉ Words.call levels) :
    ∃ statement last, lineStatement.parse cursor = (some statement, last) ∧
      EndsShort levels line tail statement cursor last := by
  obtain ⟨_, ⟨head, rfl, opens⟩, _, (computed | screen) |
    ⟨_, ⟨_, isTarget, arguments, among, rfl⟩, site, named, rfl⟩, rfl⟩ := member
  · exact absurd ⟨_, ⟨head, rfl, opens⟩, _, .inl (.inl computed), rfl⟩ lacks
  · exact absurd ⟨_, ⟨head, rfl, opens⟩, _, .inl (.inr screen), rfl⟩ lacks
  · have further : arguments ∉ Words.parenthesized (Words.expression levels) := fun shallow =>
      lacks ⟨_, ⟨head, rfl, opens⟩, _, .inr ⟨_, ⟨_, isTarget, arguments, shallow, rfl⟩, site, named,
        rfl⟩, rfl⟩
    obtain ⟨opening, isOpen, count, front, before, deep, isDeep, back, rfl⟩ :=
      beyond_parenthesized among further
    obtain ⟨target, rfl, isName⟩ := isTarget
    have next : cursor.upcoming =
        head :: target :: opening :: (front ++ (deep ++ (back ++ site) ++ tail)) := by
      simpa using split
    obtain ⟨name, values, span, last, rfl, parsed, given⟩ :=
      call_beyond fits opens ⟨target, rfl, isName⟩ isOpen before isDeep next
        (fun token among => inside token (by simp at among ⊢; tauto)) ends
    have form : lineStatement.parse cursor = call.parse cursor :=
      lineStatement_eq fits split (by simp [openers, lineForms]) opens
    refine ⟨_, last, form.trans parsed,
      head :: target :: opening :: front, deep, back ++ site, by simp, .call ?_, isDeep, given⟩
    exact ⟨[head, target, opening], ⟨[head, target], ⟨[head], ⟨head, rfl, opens⟩, [target],
      ⟨target, rfl, isName⟩, rfl⟩, [opening], ⟨opening, rfl, isOpen⟩, rfl⟩, front, before, rfl⟩

private theorem label_endsShort {more : Nat} (member : line ∈ Words.label more)
    (lacks : line ∉ Words.label levels) :
    ∃ statement last, lineStatement.parse cursor = (some statement, last) ∧
      EndsShort levels line tail statement cursor last := by
  obtain ⟨_, ⟨_, ⟨_, ⟨head, rfl, opens⟩, _, ⟨target, rfl, isName⟩, rfl⟩, parameters, among, rfl⟩,
    colon, isColon, rfl⟩ := member
  have further : parameters ∉ Words.parenthesized (Words.parameter levels) := fun shallow =>
    lacks ⟨_, ⟨_, ⟨_, ⟨head, rfl, opens⟩, _, ⟨target, rfl, isName⟩, rfl⟩, parameters, shallow, rfl⟩,
      colon, isColon, rfl⟩
  obtain ⟨opening, isOpen, count, front, before, _, isDeep, back, rfl⟩ :=
    beyond_parenthesized among further
  obtain ⟨name, assign, isParameter, isAssign, deep, isExpression, rfl⟩ := beyond_parameter isDeep
  have next : cursor.upcoming = head :: target :: opening ::
      (front ++ (name :: assign :: deep ++ (back ++ colon) ++ tail)) := by
    simpa using split
  obtain ⟨found, values, final, span, last, rfl, parsed, given⟩ :=
    labelLine_beyond fits opens isName isOpen before isParameter isAssign isExpression next
      (fun token among => inside token (by simp at among ⊢; tauto)) ends
  have form : lineStatement.parse cursor = labelLine.parse cursor :=
    lineStatement_eq fits split (by simp [openers, lineForms]) opens
  refine ⟨_, last, form.trans parsed,
    head :: target :: opening :: (front ++ [name, assign]), deep, back ++ colon, by simp, .label ?_,
    isExpression, given⟩
  exact ⟨head :: target :: opening :: front, ⟨[head, target, opening], ⟨[head, target], ⟨[head],
    ⟨head, rfl, opens⟩, [target], ⟨target, rfl, isName⟩, rfl⟩, [opening], ⟨opening, rfl, isOpen⟩,
    rfl⟩, front, before, rfl⟩, [name, assign], ⟨[name], ⟨name, rfl, isParameter⟩, [assign],
    ⟨assign, rfl, isAssign⟩, rfl⟩, rfl⟩

/-- A line of the language, but for the levels that it needs, is given up at one expression. -/
theorem lineStatement_endsShort (member : line ∈ beyond Words.statement levels) :
    ∃ statement last, lineStatement.parse cursor = (some statement, last) ∧
      EndsShort levels line tail statement cursor last := by
  obtain ⟨⟨more, member⟩, lacks⟩ := member
  simp only [Words.statement, Language.mem_add, not_or] at member lacks
  obtain ⟨⟨⟨⟨⟨⟨⟨⟨define, defaultValue⟩, label⟩, jump⟩, call⟩, «return»⟩, pass⟩, pause⟩, python⟩ :=
    lacks
  rcases member with
    (((((((other | other) | other) | other) | other) | other) | other) | other) | other
  · exact absurd other define
  · exact absurd other defaultValue
  · exact label_endsShort fits split inside ends other label
  · exact absurd other jump
  · exact call_endsShort fits split inside ends other call
  · exact headed_endsShort fits split inside ends Grammar.return .return
      (by simp [openers, lineForms]) rfl (fun _ => rfl) (fun _ _ => .return) other «return»
  · exact absurd other pass
  · exact headed_endsShort fits split inside ends Grammar.pause .pause
      (by simp [openers, lineForms]) rfl (fun _ => rfl) (fun _ _ => .pause) other pause
  · exact absurd other python

end Lines

end Forms

/-- What a line holds of an expression that needs more levels is given up, and the line is left at
its end. -/
theorem ownLine_endsShort {line : Line} {tail : List Token} (at_ : cursor.AtLine line tail)
    (head : line.IsHead) (member : line.tokens ∈ beyond Words.statement cursor.levels) :
    ∃ statement, (ownLine cursor).1 = some statement ∧ (ownLine cursor).2.upcoming = tail.tail ∧
      ∃ front deep back current opening last, line.tokens = front ++ deep ++ back ∧
        CutShort cursor.levels front statement ∧
        deep ∈ beyond Words.expression cursor.levels ∧ opening ∈ deep[cursor.levels]? ∧
        opening.kind = .punctuation .openParen ∧
        (ownLine cursor).2.errors = cursor.errors ++
          ⟨.unexpectedToken, current, some opening, []⟩ :: (missed line.first.kind).map
            fun mark => ⟨.unexpectedToken, last, tail.head?, [.punctuation mark]⟩ := by
  obtain ⟨statement, found, kind, -⟩ := ownLine_of_isHead at_ head
  have read : ownLine cursor =
      ((lineStatement.parse cursor).1, (lineStatement.parse cursor).2.expectEndOfLine.2) := by
    rw [ownLine, if_pos ((isHead_iff at_).2 head)]
  obtain ⟨short, last, parsed, front, deep, back, split, cut, isDeep, lands, current, opening,
    place, isOpen, errors⟩ :=
    lineStatement_endsShort ⟨rfl, at_.wellFormed⟩ at_.upcoming at_.inside at_.ends member
  rw [parsed] at read
  obtain rfl : short = statement := by simpa [read] using found
  obtain ⟨-, -, ended⟩ :=
    last.expectEndOfLine_lands (show _ = [] ++ tail from lands) (by simp) at_.ends
  refine ⟨short, found, (ownLine_lands at_).1, front, deep, back, current, opening, last.current,
    split, cut, isDeep, place, isOpen, ?_⟩
  rw [read, ended.2 rfl, errors, kind]

theorem CutShort.of_own {front : List Token} {first second : Statement}
    (short : CutShort levels front first) (same : first.own = second.own) :
    CutShort levels front second := by
  cases short with
  | «return» before =>
      cases second <;> simp only [Statement.own, reduceCtorEq] at same
      exact same ▸ .return before
  | pause before =>
      cases second <;> simp only [Statement.own, reduceCtorEq] at same
      exact same ▸ .pause before
  | call before =>
      cases second <;> simp only [Statement.own, reduceCtorEq] at same
      exact same ▸ .call before
  | label before =>
      cases second <;> simp only [Statement.own, reduceCtorEq, Statement.label.injEq] at same
      exact same.1 ▸ .label before

end Grammar

namespace Document

open Grammar Line

/-- A statement line that is one of the language, but for an expression that needs more levels than
the labels around it leave, yields its statement without the expression.  The error at the
parenthesis too deep is the only one on the line, except that a label then misses its closing
parenthesis and its colon, which were skipped with the expression. -/
theorem ofText_endsShort {source : List Char} {before after : List Line} {line : Line}
    (split : Line.ofTokens (Token.visible source) = before ++ line :: after) (head : line.IsHead)
    (room : (enclosing before line).length < maxNesting)
    (member : line.tokens ∈
      beyond Words.statement (maxNesting - (enclosing before line).length)) :
    ∃ node ∈ (ofText source).1.lineage, node.2.span.start = line.first.start ∧
      ∃ cursor tail, cursor.AtLine line tail ∧ cursor.depth = (enclosing before line).length ∧
        (ownLine cursor).1.map Statement.own = some node.2.own ∧
        (ownLine cursor).2.upcoming = tail.tail ∧
        (ownLine cursor).2.errors <+: (ofText source).2 ∧
        ∃ front deep back current opening last, line.tokens = front ++ deep ++ back ∧
          CutShort cursor.levels front node.2 ∧
          deep ∈ beyond Words.expression cursor.levels ∧ opening ∈ deep[cursor.levels]? ∧
          opening.kind = .punctuation .openParen ∧
          (ownLine cursor).2.errors = cursor.errors ++
            ⟨.unexpectedToken, current, some opening, []⟩ :: (missed line.first.kind).map
              fun mark => ⟨.unexpectedToken, last, tail.head?, [.punctuation mark]⟩ := by
  have found : (⟨enclosing before line, line⟩ : Site) ∈
      Site.ofLines (Line.ofTokens (Token.visible source)) :=
    Site.mem_ofLines.2 ⟨before, after, split, rfl, head,
      (capped_iff before line).not.2 (Nat.not_lt.2 room.le)⟩
  obtain ⟨node, among, visited⟩ := visited_of_mem found
  obtain ⟨cursor, tail, at_, -, depth, own, errors⟩ := visited.read
  have levels : maxNesting - (enclosing before line).length = cursor.levels := by
    rw [Cursor.levels, depth]
  rw [levels] at member
  obtain ⟨statement, yields, lands, front, deep, back, current, opening, last, parts, cut, rest⟩ :=
    ownLine_endsShort at_ head member
  have same : statement.own = node.2.own := by simpa [yields] using own
  exact ⟨node, among, visited.opened.2, cursor, tail, at_, depth, own, lands, errors, front, deep,
    back, current, opening, last, parts, cut.of_own same, rest⟩

/-- A parameter whose default needs all levels, in a label that is inside another one. -/
private def deepSource : List Char :=
  "label a:\n    label b(c=".toList ++ List.replicate maxNesting '(' ++ 'x' ::
    List.replicate maxNesting ')' ++ "):\n".toList

private def outerLine : Line :=
  ⟨(Token.visible deepSource).get ⟨0, by decide +kernel⟩,
    ((Token.visible deepSource).drop 1).takeWhile (·.kind != .newline)⟩

private def deepLine : Line :=
  ⟨(Token.visible deepSource).get ⟨4, by decide +kernel⟩,
    ((Token.visible deepSource).drop 5).takeWhile (·.kind != .newline)⟩

private theorem deepSource_lines :
    Line.ofTokens (Token.visible deepSource) = [outerLine] ++ deepLine :: [] := by
  decide +kernel

private theorem deepLine_isHead : deepLine.IsHead := by decide +kernel

/-- At the top the line is read without an error, and inside a label it is not. -/
private theorem deepLine_beyond :
    deepLine.tokens ∈
      beyond Words.statement (maxNesting - (enclosing [outerLine] deepLine).length) := by
  have at_ (depth : Nat) : Cursor.AtLine
      { source := deepSource, upcoming := (Token.visible deepSource).drop 4, depth } deepLine
      (((Token.visible deepSource).drop 5).dropWhile (·.kind != .newline)) :=
    Cursor.atLine (List.drop_eq_getElem_cons _) (by decide +kernel) fun token member =>
      Token.visible_wellFormed token (List.mem_of_mem_drop member)
  have depth : (enclosing [outerLine] deepLine).length = 1 := by decide +kernel
  rw [depth]
  refine ⟨⟨maxNesting, (ownLine_clean_iff (at_ 0) deepLine_isHead).1 ?_⟩, fun shallow => ?_⟩
  · decide +kernel
  · exact absurd ((ownLine_clean_iff (at_ 1) deepLine_isHead).2 shallow) (by decide +kernel)

/-- The inner label is kept without the default of its parameter. -/
theorem deepSource_endsShort :
    ∃ node ∈ (ofText deepSource).1.lineage, node.2.span.start = deepLine.first.start ∧
      ∃ cursor : Cursor, cursor.depth = 1 ∧ ∃ front, CutShort cursor.levels front node.2 := by
  obtain ⟨node, among, starts, cursor, -, -, depth, -, -, -, front, -, -, -, -, -, -, short, -⟩ :=
    ofText_endsShort deepSource_lines deepLine_isHead (by decide +kernel) deepLine_beyond
  have inside : (enclosing [outerLine] deepLine).length = 1 := by decide +kernel
  exact ⟨node, among, starts, cursor, depth.trans inside, front, short⟩

/-- One expression too deep, and three errors. -/
theorem deepSource_told_thrice :
    Line.ofTokens (Token.visible deepSource) = [outerLine] ++ deepLine :: [] ∧
      deepLine.tokens ∈
        beyond Words.statement (maxNesting - (enclosing [outerLine] deepLine).length) ∧
      (ofText deepSource).2.map (·.problem) = List.replicate 3 .unexpectedToken :=
  ⟨deepSource_lines, deepLine_beyond, by decide +kernel⟩

end Document

end NovelScript
