import NovelScript.Proofs.RuleAcceptance

/-!
# Expressions and their language

Names take as many attributes as follow, so that no further one may follow a name.  Nesting in
parentheses goes down one level at a time.
-/

namespace NovelScript

open Computability Words

/-! ## Lists -/

namespace Words

theorem star_eq (words : Language Token) : words∗ = 1 + words * words∗ :=
  (Language.one_add_self_mul_kstar_eq_kstar words).symm

/-- A list with its closing parenthesis ends behind the first item or goes on behind a comma. -/
theorem separated_close (item : Language Token) :
    separated item * mark .closeParen =
      item * mark .closeParen + item * (mark .comma * (separated item * mark .closeParen)) := by
  conv_lhs => rw [separated, star_eq]
  simp only [separated, mul_add, add_mul, mul_one, mul_assoc]

end Words

namespace Parse

variable {α : Type} {levels : Nat} {item : Parse α} {words : Language Token}
  {follow : List Token → Prop}

private theorem separated_sound (accepts : item.Accepts levels words follow)
    (advances : item.Advances) (cursor : Cursor) (fits : cursor.Fits levels)
    (clean : (separated item advances cursor).2.errors = cursor.errors) :
    ∃ word ∈ Words.separated words * mark .closeParen,
      cursor.upcoming = word ++ (separated item advances cursor).2.upcoming := by
  fun_induction separated item advances cursor with
  | case1 cursor behind found =>
      have same : (item cursor).2.errors = cursor.errors := by rw [found]; exact clean
      obtain ⟨⟨value, some_⟩, -⟩ := accepts.sound cursor fits same
      simp [found] at some_
  | case2 cursor value behind found tested values last equal ih =>
      have moved : Cursor.Trace cursor behind := by simpa [found] using accepts.bound.trace cursor
      obtain ⟨comma, rest, next, has⟩ := Cursor.next_of_peek tested
      have further := separated_trace accepts.bound advances behind.advance.2
      rw [Cursor.advance_eq next] at equal ih further
      rw [equal] at ih further
      have taken : Cursor.Trace behind last :=
        .take next (Token.withinLine_of_hasKind (by simp) has) further
      obtain ⟨clean₁, clean₂⟩ := clean_parts moved.errors_prefix taken.errors_prefix clean
      have behindFits := fits.of_trace moved
      have same : (item cursor).2.errors = cursor.errors := by rw [found]; exact clean₁
      obtain ⟨-, front, inItem, one⟩ := accepts.sound cursor fits same
      obtain ⟨back, inList, two⟩ := ih (behindFits.of_trace (.of_take next
        (Token.withinLine_of_hasKind (by simp) has))) clean₂
      have isComma := (behindFits.wellFormed comma (by simp [next])).hasKind_plain.1 has
      refine ⟨front ++ ([comma] ++ back), ?_, ?_⟩
      · rw [separated_close]
        exact .inr ⟨front, inItem, _, ⟨[comma], ⟨comma, rfl, isComma⟩, back, inList, rfl⟩, rfl⟩
      · rw [one, found, next, List.append_assoc, List.append_assoc, ← two]
        rfl
  | case3 cursor value behind found tested =>
      have moved : Cursor.Trace cursor behind := by simpa [found] using accepts.bound.trace cursor
      have close : (token (.punctuation .closeParen)).Accepts levels (mark .closeParen) follow :=
        .token
      have further := close.bound.trace behind
      obtain ⟨clean₁, clean₂⟩ := clean_parts moved.errors_prefix further.errors_prefix clean
      have same : (item cursor).2.errors = cursor.errors := by rw [found]; exact clean₁
      obtain ⟨-, front, inItem, one⟩ := accepts.sound cursor fits same
      obtain ⟨-, back, inClose, two⟩ := close.sound behind (fits.of_trace moved) clean₂
      refine ⟨front ++ back, ?_, ?_⟩
      · rw [separated_close]
        exact .inl ⟨front, inItem, back, inClose, rfl⟩
      · rw [one, found, List.append_assoc]
        exact congrArg (front ++ ·) two

private theorem separated_item (accepts : item.Accepts levels words follow)
    (follows : ∀ token rest, token.kind = .punctuation .comma ∨
      token.kind = .punctuation .closeParen → follow (token :: rest))
    {cursor : Cursor} (fits : cursor.Fits levels) {word rest : List Token}
    (member : word ∈ Words.separated words * mark .closeParen)
    (split : cursor.upcoming = word ++ rest) :
    ∃ next tail, (item cursor).2.errors = cursor.errors ∧
      (item cursor).2.upcoming = next :: tail ∧
      (next.kind = .punctuation .closeParen ∧ tail = rest ∨
        next.kind = .punctuation .comma ∧
          ∃ back ∈ Words.separated words * mark .closeParen, tail = back ++ rest) := by
  rw [separated_close] at member
  rcases member with ⟨front, inItem, _, ⟨close, rfl, isClose⟩, rfl⟩ |
    ⟨front, inItem, _, ⟨_, ⟨comma, rfl, isComma⟩, back, inList, rfl⟩, rfl⟩
  · have parts : cursor.upcoming = front ++ close :: rest := by simp [split]
    obtain ⟨clean, lands⟩ := accepts.complete cursor fits front inItem _ parts
      (follows close rest (.inr isClose))
    exact ⟨close, rest, clean, lands, .inl ⟨isClose, rfl⟩⟩
  · have parts : cursor.upcoming = front ++ comma :: (back ++ rest) := by simp [split]
    obtain ⟨clean, lands⟩ := accepts.complete cursor fits front inItem _ parts
      (follows comma (back ++ rest) (.inl isComma))
    exact ⟨comma, back ++ rest, clean, lands, .inr ⟨isComma, back, inList, rfl⟩⟩

private theorem separated_complete (accepts : item.Accepts levels words follow)
    (advances : item.Advances)
    (follows : ∀ token rest, token.kind = .punctuation .comma ∨
      token.kind = .punctuation .closeParen → follow (token :: rest))
    (cursor : Cursor) (fits : cursor.Fits levels) {word rest : List Token}
    (member : word ∈ Words.separated words * mark .closeParen)
    (split : cursor.upcoming = word ++ rest) :
    (separated item advances cursor).2.errors = cursor.errors ∧
      (separated item advances cursor).2.upcoming = rest := by
  fun_induction separated item advances cursor generalizing word with
  | case1 cursor behind found =>
      obtain ⟨next, tail, clean, -⟩ := separated_item accepts follows fits member split
      obtain ⟨⟨value, some_⟩, -⟩ := accepts.sound cursor fits clean
      simp [found] at some_
  | case2 cursor value behind found tested values last equal =>
      rename_i ih
      obtain ⟨next, tail, clean, lands, marks⟩ := separated_item accepts follows fits member split
      have behindFits := fits.of_trace (accepts.bound.trace cursor)
      rw [found] at clean lands behindFits
      rw [behindFits.test_iff, lands] at tested
      obtain ⟨_, first, comma⟩ := tested
      cases first
      obtain ⟨close, -⟩ | ⟨-, back, inList, rfl⟩ := marks
      · simp [comma] at close
      · rw [Cursor.advance_eq lands] at equal ih
        have within := Token.withinLine_of_hasKind (by simp [comma]) next.hasKind_self
        have ended := ih (behindFits.of_trace (.of_take lands within)) inList rfl
        rw [equal] at ended
        exact ⟨ended.1.trans clean, ended.2⟩
  | case3 cursor value behind found tested =>
      obtain ⟨next, tail, clean, lands, marks⟩ := separated_item accepts follows fits member split
      have behindFits := fits.of_trace (accepts.bound.trace cursor)
      rw [found] at clean lands behindFits
      obtain ⟨close, rfl⟩ | ⟨comma, -⟩ := marks
      · have has : next.hasKind (.punctuation .closeParen) = true := by simp [Token.hasKind, close]
        have taken : behind.requireToken (.punctuation .closeParen) =
            (some next, behind.shift next tail) := token_eq lands has
        rw [taken]
        exact ⟨clean, rfl⟩
      · rw [behindFits.test_iff, lands] at tested
        exact absurd ⟨next, rfl, comma⟩ tested

/-- A list in parentheses, if its items do not look like a closing one. -/
theorem parenthesizedList_accepts {opens : Token → Prop} (accepts : item.Accepts levels words follow)
    (advances : item.Advances) (begins : Begins opens words)
    (apart : ∀ token, opens token → token.kind ≠ .punctuation .closeParen)
    (follows : ∀ token rest, token.kind = .punctuation .comma ∨
      token.kind = .punctuation .closeParen → follow (token :: rest)) :
    (parenthesizedList item advances).Accepts levels (Words.parenthesized words)
      (Avoids [.punctuation .openParen]) := by
  have list : Accepts levels (Words.separated words * mark .closeParen)
      (Avoids [.punctuation .openParen]) fun cursor =>
        (some (separated item advances cursor).1, (separated item advances cursor).2) := by
    refine ⟨separated_lineBound accepts.bound advances, ?_, ?_⟩
    · intro cursor fits clean
      exact ⟨⟨_, rfl⟩, separated_sound accepts advances cursor fits clean⟩
    · intro cursor fits word member rest split _
      exact separated_complete accepts advances follows cursor fits member split
  have nonempty : Begins opens (Words.separated words * mark .closeParen) := begins.mul.mul
  refine .of_eq (.tokenIf_bind (fun _ => .tokenIf_bind (fun _ => .pure []) list
    fun member => absurd member nonempty.nil_notMem) (.pure []) fun _ _ holds => holds) ?_
  rw [nonempty.without_eq apart, without_one, Words.parenthesized, Words.optional, Words.optional,
    mul_one, mul_assoc, add_mul, one_mul, add_comm]
  rfl

end Parse

namespace Grammar

open Parse

/-! ## Literals and names -/

variable {levels : Nat}

private theorem isLiteral_iff {token : Token} (wellFormed : token.WellFormed) :
    (LiteralKind.all.any fun kind => token.hasKind (.literal kind)) = true ↔ IsLiteral token := by
  rw [List.any_eq_true]
  constructor
  · rintro ⟨kind, -, has⟩
    by_cases string : kind = .string
    · subst string
      exact (wellFormed.hasKind_string_iff.1 has).imp_left fun same => ⟨_, same⟩
    · exact .inl ⟨kind, (wellFormed.hasKind_iff (by simpa using string) (by simp)).1 has⟩
  · rintro (⟨kind, same⟩ | unclosed)
    · exact ⟨kind, by cases kind <;> decide, same ▸ token.hasKind_self⟩
    · exact ⟨.string, by decide, wellFormed.hasKind_string_iff.2 (.inr unclosed)⟩

private theorem literal_parse {cursor : Cursor} {token : Token} {rest : List Token}
    (next : cursor.upcoming = token :: rest) (wellFormed : token.WellFormed)
    (isLiteral : IsLiteral token) :
    ∃ value, Grammar.literal.parse cursor = (some value, cursor.shift token rest) := by
  obtain ⟨kind, member, has⟩ := List.any_eq_true.1 ((isLiteral_iff wellFormed).2 isLiteral)
  have found : ∃ kind, LiteralKind.all.find? (fun kind => cursor.test (.literal kind)) = some kind := by
    rw [← Option.isSome_iff_exists, List.find?_isSome]
    exact ⟨kind, member, by simpa [Cursor.test, Cursor.peek?, next] using has⟩
  obtain ⟨kind, found⟩ := found
  have tested : cursor.test (.literal kind) = true := by simpa using List.find?_some found
  have taken := token_eq next (by simpa [Cursor.test, Cursor.peek?, next] using tested)
  refine ⟨.literal ⟨kind, token.value cursor.source, token.span⟩, ?_⟩
  have looked : look cursor = (some cursor, cursor) := rfl
  simp only [Grammar.literal]
  rw [bind_some (congrArg Prod.fst looked), looked]
  simp only [found]
  rw [bind_some (congrArg Prod.fst taken), taken]
  rfl

theorem literal_accepts :
    Grammar.literal.Accepts levels IsLiteral Words.literal (fun _ => True) := by
  have shows (cursor : Cursor) (fits : cursor.Fits levels) :
      Grammar.literal.starts cursor = true ↔ ∃ token ∈ cursor.upcoming.head?, IsLiteral token := by
    simp only [Grammar.literal, Cursor.test, Cursor.peek?]
    cases next : cursor.upcoming with
    | nil => simp
    | cons token rest =>
        simpa using isLiteral_iff (fits.wellFormed token (by simp [next]))
  refine ⟨literal_lineBound, shows, begins_one _, Rule.require_lineBound literal_lineBound, ?_, ?_⟩
  · intro cursor fits clean
    unfold Rule.require at clean ⊢
    split at clean
    · next starts =>
        obtain ⟨token, first, isLiteral⟩ := (shows cursor fits).1 starts
        obtain ⟨rest, next⟩ := List.head?_eq_some_iff.1 first
        obtain ⟨value, parsed⟩ :=
          literal_parse next (fits.wellFormed token (by simp [next])) isLiteral
        rw [if_pos starts, parsed]
        exact ⟨⟨value, rfl⟩, [token], ⟨token, rfl, isLiteral⟩, next⟩
    · exact absurd clean (Rule.Accepts.recordUnexpected_ne cursor)
  · rintro cursor fits word ⟨token, rfl, isLiteral⟩ rest next -
    obtain ⟨value, parsed⟩ := literal_parse next (fits.wellFormed token (by simp [next])) isLiteral
    have starts := (shows cursor fits).2 ⟨token, by simp [next], isLiteral⟩
    rw [Rule.require, if_pos starts, parsed]
    exact ⟨rfl, rfl⟩

private theorem attribute_cases {word : List Token} (member : word ∈ (mark .dot * Words.name)∗) :
    word = [] ∨ ∃ dot name later, word = dot :: name :: later ∧
      dot.kind = .punctuation .dot ∧ IsName name ∧ later ∈ (mark .dot * Words.name)∗ := by
  rw [star_eq] at member
  rcases member with rfl | ⟨_, ⟨_, ⟨dot, rfl, isDot⟩, _, ⟨name, rfl, isName⟩, rfl⟩, later, more, rfl⟩
  · exact .inl rfl
  · exact .inr ⟨dot, name, later, rfl, isDot, isName, more⟩

private theorem attributes_sound (path : String) (cursor : Cursor) (fits : cursor.Fits levels)
    (tokens : List Token) (equal : cursor.upcoming = tokens)
    (clean : (attributes path cursor tokens).2.errors = cursor.errors) :
    (∃ value, (attributes path cursor tokens).1 = some value) ∧
      ∃ word ∈ (mark .dot * Words.name)∗,
        tokens = word ++ (attributes path cursor tokens).2.upcoming := by
  fun_induction attributes path cursor tokens with
  | case1 => exact ⟨⟨_, rfl⟩, [], Language.nil_mem_kstar _, equal.symm⟩
  | case2 path cursor dot isDot behind => simp [Cursor.record, behind, Cursor.shift] at clean
  | case3 path cursor dot isDot name rest isName behind ih =>
      have proper (token : Token) (member : token ∈ dot :: name :: rest) : token.WellFormed :=
        fits.wellFormed token (equal ▸ member)
      obtain ⟨found, word, member, split⟩ :=
        ih ⟨fits.levels_eq, fun token member => proper token (by simp at member; simp [member])⟩
          rfl clean
      refine ⟨found, dot :: name :: word, ?_, by rw [List.cons_append, List.cons_append, ← split]⟩
      rw [star_eq]
      have isDot_ := (proper dot (by simp)).hasKind_plain.1 isDot
      have isName_ := (proper name (by simp)).isName_iff.1 isName
      exact .inr ⟨_, ⟨[dot], ⟨dot, rfl, isDot_⟩, [name], ⟨name, rfl, isName_⟩, rfl⟩, word, member,
        rfl⟩
  | case4 path cursor dot isDot name rest notName behind =>
      simp [Cursor.record, behind, Cursor.shift] at clean
  | case5 path cursor dot rest notDot =>
      exact ⟨⟨_, rfl⟩, [], Language.nil_mem_kstar _, equal.symm⟩

private theorem attributes_complete (path : String) (cursor : Cursor) (fits : cursor.Fits levels)
    (tokens : List Token) (equal : cursor.upcoming = tokens) {word rest : List Token}
    (member : word ∈ (mark .dot * Words.name)∗) (split : tokens = word ++ rest)
    (avoids : Avoids [.punctuation .dot] rest) :
    (attributes path cursor tokens).2.errors = cursor.errors ∧
      (attributes path cursor tokens).2.upcoming = rest := by
  have proper (token : Token) (member : token ∈ tokens) : token.WellFormed :=
    fits.wellFormed token (equal ▸ member)
  have other {token : Token} {more : List Token} (same : rest = token :: more) :
      token.kind ≠ .punctuation .dot := by
    simpa using avoids token (by simp [same])
  fun_induction attributes path cursor tokens generalizing word with
  | case1 path cursor =>
      have both := List.append_eq_nil_iff.1 split.symm
      exact ⟨rfl, equal.trans both.2.symm⟩
  | case2 path cursor dot isDot behind =>
      have isDot_ := (proper dot (by simp)).hasKind_plain.1 isDot
      rcases attribute_cases member with rfl | ⟨_, _, _, rfl, -⟩
      · exact absurd isDot_ (other split.symm)
      · simp at split
  | case3 path cursor dot isDot name more isName behind =>
      rename_i ih
      have isDot_ := (proper dot (by simp)).hasKind_plain.1 isDot
      rcases attribute_cases member with rfl | ⟨_, _, later, rfl, -, -, inside⟩
      · exact absurd isDot_ (other split.symm)
      · simp only [List.cons_append, List.cons.injEq] at split
        obtain ⟨rfl, rfl, split⟩ := split
        have proper_ (token : Token) (member : token ∈ more) : token.WellFormed :=
          proper token (by simp [member])
        exact ih ⟨fits.levels_eq, proper_⟩ rfl inside split proper_
  | case4 path cursor dot isDot name more notName behind =>
      have isDot_ := (proper dot (by simp)).hasKind_plain.1 isDot
      rcases attribute_cases member with rfl | ⟨_, _, later, rfl, -, isName, -⟩
      · exact absurd isDot_ (other split.symm)
      · simp only [List.cons_append, List.cons.injEq] at split
        obtain ⟨rfl, rfl, -⟩ := split
        exact absurd ((proper name (by simp)).isName_iff.2 isName) notName
  | case5 path cursor dot more notDot =>
      rcases attribute_cases member with rfl | ⟨_, _, later, rfl, isDot, -, -⟩
      · exact ⟨rfl, equal.trans split⟩
      · simp only [List.cons_append, List.cons.injEq] at split
        obtain ⟨rfl, -⟩ := split
        exact absurd ((proper dot (by simp)).hasKind_plain.2 isDot) notDot

theorem reference_accepts :
    Grammar.reference.Accepts levels (·.kind = .identifier) Words.reference
      (Avoids [.punctuation .dot]) := by
  have attributes_ (path : String) : Accepts levels (mark .dot * Words.name)∗
      (Avoids [.punctuation .dot]) fun cursor => attributes path cursor cursor.upcoming := by
    refine ⟨attributes_lineBound path, ?_, ?_⟩
    · exact fun cursor fits clean => attributes_sound path cursor fits _ rfl clean
    · exact fun cursor fits word member rest split avoids =>
        attributes_complete path cursor fits _ rfl member split avoids
  refine .startingAt (begins_one _).mul (.andThen .token fun first => ?_)
  refine .skip (.text first) fun path => ?_
  refine .finish (attributes_ path) fun name => ?_
  exact .skip (.spanFrom first.start) fun _ => .pure _

/-! ## Parentheses -/

/-- The tokens that an expression opens with. -/
def OpensExpression (token : Token) : Prop :=
  IsLiteral token ∨ token.kind = .punctuation .openParen ∨ token.kind = .identifier

private theorem not_isLiteral {token : Token} {kind : Kind} (same : token.kind = kind)
    (literal : ∀ sort, kind ≠ .literal sort) (invalid : kind ≠ .invalid) : ¬IsLiteral token := by
  rintro (⟨sort, other⟩ | ⟨other, -⟩)
  · exact literal sort (same.symm.trans other)
  · exact invalid (same.symm.trans other)

theorem OpensExpression.kind_ne {token : Token} {kind : Kind} (opens : OpensExpression token)
    (other : kind = .newline ∨ kind = .punctuation .closeParen) : token.kind ≠ kind := by
  intro same
  rcases other with rfl | rfl
  · rcases opens with isLiteral | opening | identifier
    · exact not_isLiteral same (by simp) (by simp) isLiteral
    · simp [same] at opening
    · simp [same] at identifier
  · rcases opens with isLiteral | opening | identifier
    · exact not_isLiteral same (by simp) (by simp) isLiteral
    · simp [same] at opening
    · simp [same] at identifier

private theorem expressionOf_accepts {parenthesized : Rule Expression} {inner : Language Token}
    (accepts : parenthesized.Accepts levels (·.kind = .punctuation .openParen) inner
      (fun _ => True)) :
    (expressionOf parenthesized).Accepts levels OpensExpression
      (Words.literal + inner + Words.reference) (Avoids [.punctuation .dot]) := by
  have always (rest : List Token) (_ : Avoids [.punctuation .dot] rest) : True := trivial
  have names := Rule.Accepts.choice_cons (reference_accepts : reference.Accepts levels _ _ _)
    .choice_nil (by simp)
  have behind := Rule.Accepts.choice_cons (accepts.follow_mono always) names (by
      intro token opening other
      simp [opening] at other)
  have whole := Rule.Accepts.choice_cons (literal_accepts.follow_mono always) behind (by
      rintro token isLiteral (opening | identifier | ⟨⟨⟩⟩)
      · exact not_isLiteral opening (by simp) (by simp) isLiteral
      · exact not_isLiteral identifier (by simp) (by simp) isLiteral)
  refine (whole.of_eq ?_).of_opens ?_
  · rw [add_zero, add_assoc]
  · simp [OpensExpression]

private theorem parenthesizedBody_accepts {rule : Rule Expression} {words : Language Token}
    (accepts : rule.Accepts levels OpensExpression words (Avoids [.punctuation .dot])) :
    (parenthesizedBody rule).Accepts levels
      (mark .openParen * words * mark .closeParen) (fun _ => True) := by
  refine .of_eq (.andThen .token fun opening => ?_) (mul_assoc _ _ _).symm
  refine .bind accepts.require (fun inner => ?_) ?_
  · refine .finish .token fun closing => ?_
    exact .skip (.spanFrom opening.start) fun _ => .pure _
  · intro word member rest _
    refine (begins_one _).avoids ?_ member
    intro token same
    simp [same]

theorem parenthesizedWithin_accepts (levels : Nat) :
    (parenthesizedWithin levels).Accepts levels (·.kind = .punctuation .openParen) (nested levels)
      (fun _ => True) := by
  induction levels with
  | zero =>
      refine .of_parse (parenthesizedWithin_lineBound 0) ?_ (fun _ member => member.elim) ?_
      · exact fun cursor fits => fits.test_iff
      · refine ⟨(parenthesizedWithin_lineBound 0).parse, ?_, fun _ _ _ member => member.elim⟩
        intro cursor fits clean
        have trace := Cursor.skipRestOfLine_trace cursor.recordUnexpected
        have recorded : Cursor.Trace cursor cursor.recordUnexpected := .of_record []
        obtain ⟨clean₁, -⟩ := clean_parts recorded.errors_prefix trace.errors_prefix clean
        exact absurd clean₁ (Rule.Accepts.recordUnexpected_ne cursor)
  | succ levels ih =>
      have body := parenthesizedBody_accepts (expressionOf_accepts ih)
      have deeper {cursor : Cursor} (fits : cursor.Fits (levels + 1)) :
          ({ cursor with depth := cursor.depth + 1 } : Cursor).Fits levels ∧
            (parenthesizedWithin (levels + 1)).parse cursor =
              ((parenthesizedBody (expressionOf (parenthesizedWithin levels))
                { cursor with depth := cursor.depth + 1 }).1,
              (parenthesizedBody (expressionOf (parenthesizedWithin levels))
                { cursor with depth := cursor.depth + 1 }).2.leaveNested) := by
        have left := fits.levels_eq
        simp only [Cursor.levels] at left
        have room : ¬cursor.depth ≥ maxNesting := by omega
        refine ⟨⟨by simp only [Cursor.levels]; omega, fits.wellFormed⟩, ?_⟩
        simp only [parenthesizedWithin, Rule.startingAt, Cursor.enterNested, if_neg room]
      refine .of_parse (parenthesizedWithin_lineBound _) ?_ (begins_one _).mul.mul ?_
      · exact fun cursor fits => fits.test_iff
      · refine ⟨(parenthesizedWithin_lineBound _).parse, ?_, ?_⟩
        · intro cursor fits clean
          obtain ⟨inside, equal⟩ := deeper fits
          rw [equal] at clean ⊢
          exact body.sound _ inside clean
        · intro cursor fits word member rest split holds
          obtain ⟨inside, equal⟩ := deeper fits
          rw [equal]
          exact body.complete _ inside word member rest split holds

theorem expression_accepts (levels : Nat) :
    Grammar.expression.Accepts levels OpensExpression (Words.expression levels)
      (Avoids [.punctuation .dot]) := by
  refine expressionOf_accepts ((parenthesizedWithin_accepts levels).congr parenthesized_lineBound
    ?_ ?_)
  · cases levels <;> rfl
  · intro cursor same
    simp only [parenthesized, Rule.startingAt, same]

end Grammar

end NovelScript
