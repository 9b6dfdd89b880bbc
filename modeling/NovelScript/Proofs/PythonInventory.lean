import NovelScript.Proofs.Embedding
import NovelScript.Proofs.StatementAcceptance
import NovelScript.Syntax.Document

/-!
# Python in syntax trees and in tokens

The python codes of a syntax tree in the order of the script, and the codes that tokens stand for.
Expressions of the script grammar hold no python, and neither do the tokens they are made of.
-/

namespace NovelScript

/-! ## Codes of syntax trees and of tokens -/

namespace Expression

def pythonCodes : Expression → List PythonCode
  | .literal _ => []
  | .reference _ => []
  | .parenthesized inner _ => inner.pythonCodes
  | .assignment left _ right _ => left.pythonCodes ++ right.pythonCodes
  | .python code => [code]

def pythonCodesOption : Option Expression → List PythonCode
  | some expression => expression.pythonCodes
  | none => []

end Expression

def Assignment.pythonCodes (assignment : Assignment) : List PythonCode :=
  assignment.left.pythonCodes ++ assignment.right.pythonCodes

def Assignment.pythonCodesOption : Option Assignment → List PythonCode
  | some assignment => assignment.pythonCodes
  | none => []

/-- The codes on the line of a statement; the body of a label has its own. -/
def Statement.pythonCodes : Statement → List PythonCode
  | .define binding => binding.index.toList ++ Assignment.pythonCodesOption binding.assignment
  | .defaultValue binding => Assignment.pythonCodesOption binding.assignment
  | .label head _ _ =>
      head.parameters.flatMap fun parameter => Expression.pythonCodesOption parameter.default
  | .jump transfer => transfer.expression.toList
  | .call transfer =>
      transfer.expression.toList ++ transfer.arguments.flatMap Expression.pythonCodes
  | .return value _ => Expression.pythonCodesOption value
  | .pass _ => []
  | .pause duration _ => Expression.pythonCodesOption duration
  | .python code _ => code.toList

def Document.pythonCodes (document : Document) : List PythonCode :=
  document.nodes.flatMap fun node => node.2.pythonCodes

namespace Token

/-- A python token as code, which is terminated unless the token is invalid. -/
def pythonCode (source : List Char) (token : Token) : PythonCode :=
  ⟨token.value source, !token.isInvalid, token.span⟩

def pythonCodes (source : List Char) (tokens : List Token) : List PythonCode :=
  (tokens.filter isPython).map (pythonCode source)

theorem pythonCodes_append (source : List Char) (first second : List Token) :
    pythonCodes source (first ++ second) = pythonCodes source first ++ pythonCodes source second := by
  simp [pythonCodes]

theorem isPython_iff {token : Token} : token.isPython = true ↔ Words.IsPython token := by
  simp [isPython, Words.IsPython]

theorem NoPython.pythonCodes_eq {tokens : List Token} (none : NoPython tokens)
    (source : List Char) : pythonCodes source tokens = [] := by
  have empty : tokens.filter isPython = [] := by
    rw [List.filter_eq_nil_iff]
    exact fun token member => by simp [none token member]
  rw [pythonCodes, empty, List.map_nil]

end Token

open Token Words

/-! ## Results without python -/

namespace Parse

variable {α β : Type}

/-- Whatever comes back from a parse has a property. -/
def Gives (post : α → Prop) (parse : Parse α) : Prop :=
  ∀ cursor value, (parse cursor).1 = some value → post value

namespace Gives

theorem pure {post : α → Prop} {value : α} (holds : post value) : Gives post (pure value) := by
  intro cursor result found
  cases found
  exact holds

theorem bind {first : Parse α} {next : α → Parse β} {middle : α → Prop} {post : β → Prop}
    (start : Gives middle first) (behind : ∀ value, middle value → Gives post (next value)) :
    Gives post (first >>= next) := by
  intro cursor result found
  cases started : (first cursor).1 with
  | none =>
      rw [bind_none started] at found
      cases found
  | some value =>
      rw [bind_some started] at found
      exact behind value (start cursor value started) _ result found

theorem andThen {first : Parse α} {next : α → Parse β} {post : β → Prop}
    (behind : ∀ value, Gives post (next value)) : Gives post (first >>= next) :=
  bind (fun _ _ _ => trivial : Gives (fun _ => True) first) fun value _ => behind value

theorem attempt {parse : Parse α} {post : α → Prop} (gives : Gives post parse) :
    Gives (fun result => ∀ value ∈ result, post value) parse.attempt := by
  intro cursor result found value member
  cases found
  exact gives cursor value member

theorem require {rule : Rule α} {post : α → Prop} (gives : Gives post rule.parse) :
    Gives post rule.require := by
  intro cursor value found
  unfold Rule.require at found
  split at found
  · exact gives cursor value found
  · cases found

theorem «optional» {rule : Rule α} {post : α → Prop} (gives : Gives post rule.parse) :
    Gives (fun result => ∀ value ∈ result, post value) rule.optional := by
  intro cursor result found
  unfold Rule.optional at found
  split at found
  · exact gives.attempt cursor result found
  · cases found
    simp

theorem choice {rules : List (Rule α)} {post : α → Prop}
    (gives : ∀ rule ∈ rules, Gives post rule.parse) : Gives post (Rule.choice rules).parse := by
  intro cursor value found
  cases first : rules.find? (·.starts cursor) with
  | some rule =>
      rw [Rule.choice_some first] at found
      exact gives rule (List.mem_of_find?_eq_some first) cursor value found
  | none =>
      rw [Rule.choice_none first] at found
      cases found

theorem separated {item : Parse α} {post : α → Prop} (gives : Gives post item)
    (advances : item.Advances) (cursor : Cursor) :
    ∀ value ∈ (separated item advances cursor).1, post value := by
  fun_induction Parse.separated item advances cursor with
  | case1 cursor behind found => simp
  | case2 cursor value behind found tested values last equal ih =>
      rw [equal] at ih
      intro other member
      rcases List.mem_cons.1 member with rfl | member
      · exact gives cursor _ (by rw [found])
      · exact ih other member
  | case3 cursor value behind found tested =>
      intro other member
      rw [List.mem_singleton] at member
      subst member
      exact gives cursor _ (by rw [found])

theorem parenthesizedList {item : Parse α} {post : α → Prop} (gives : Gives post item)
    (advances : item.Advances) :
    Gives (fun values => ∀ value ∈ values, post value)
      (Parse.parenthesizedList item advances) := by
  refine .andThen fun opening => ?_
  cases opening with
  | none => exact .pure (by simp)
  | some _ =>
      refine .andThen fun closing => ?_
      cases closing with
      | some _ => exact .pure (by simp)
      | none =>
          intro cursor values found
          cases found
          exact gives.separated advances cursor

end Gives

end Parse

/-! ## Languages without python -/

namespace Words

open Computability

def Silent (words : Language Token) : Prop := ∀ word ∈ words, NoPython word

namespace Silent

variable {left right : Language Token}

theorem one {accepts : Token → Prop} (other : ∀ token, accepts token → token.isPython = false) :
    Silent (Words.one accepts) := by
  rintro word ⟨token, rfl, accepted⟩
  simpa [NoPython] using other token accepted

theorem kind {kind : Kind} [plain : kind.IsPlain] : Silent (Words.kind kind) := by
  refine one fun token same => ?_
  simp [isPython, same, plain.python, plain.invalid]

theorem empty : Silent 1 := by
  rintro word ⟨⟩
  simp [NoPython]

theorem mul (first : Silent left) (second : Silent right) : Silent (left * right) := by
  rintro word ⟨front, inLeft, back, inRight, rfl⟩ token member
  rcases List.mem_append.1 member with member | member
  · exact first front inLeft token member
  · exact second back inRight token member

theorem add (first : Silent left) (second : Silent right) : Silent (left + right) := by
  rintro word (inLeft | inRight)
  · exact first word inLeft
  · exact second word inRight

theorem star (silent : Silent left) : Silent left∗ := by
  intro word member
  obtain ⟨parts, rfl, each⟩ := Language.mem_kstar.1 member
  intro token inside
  obtain ⟨part, among, here⟩ := List.mem_flatten.1 inside
  exact silent part (each part among) token here

theorem «optional» (silent : Silent left) : Silent (Words.optional left) := empty.add silent

theorem parenthesized (silent : Silent left) : Silent (Words.parenthesized left) :=
  «optional» (.mul (.mul kind (.optional (.mul silent (.star (.mul kind silent))))) kind)

theorem name : Silent Words.name := by
  apply one
  intro token named
  rcases named with same | ⟨keyword, same⟩
  · simp [isPython, same]
  · simp [isPython, same]

theorem literal : Silent Words.literal := by
  apply one
  rintro token (⟨literal, same⟩ | ⟨same, wrapped⟩)
  · simp [isPython, same]
  · simp [isPython, same, wrapped]

theorem reference : Silent Words.reference := .mul kind (.star (.mul kind name))

theorem nested (levels : Nat) : Silent (Words.nested levels) := by
  induction levels with
  | zero => exact fun word member => member.elim
  | succ levels ih => exact .mul (.mul kind ((literal.add ih).add reference)) kind

theorem expression (levels : Nat) : Silent (Words.expression levels) :=
  (literal.add (nested levels)).add reference

theorem label (levels : Nat) : Silent (Words.label levels) := by
  have parameter : Silent (Words.parameter levels) :=
    .mul kind (.optional (.mul kind (expression levels)))
  exact .mul (.mul (.mul kind name) (.parenthesized parameter)) kind

theorem «return» (levels : Nat) : Silent (Words.«return» levels) :=
  .mul kind (.optional (expression levels))

theorem pause (levels : Nat) : Silent (Words.pause levels) :=
  .mul kind (.optional (expression levels))

end Silent

end Words

namespace Grammar

open Parse

/-! ## Expressions -/

theorem reference_gives {post : Expression → Prop} (references : ∀ name, post (.reference name)) :
    Gives post Grammar.reference.parse :=
  .andThen fun _ => .andThen fun _ => .andThen fun _ => .andThen fun _ => .pure (references _)

theorem literal_gives {post : Expression → Prop} (literals : ∀ value, post (.literal value)) :
    Gives post Grammar.literal.parse := by
  refine .andThen fun cursor => ?_
  split
  · intro cursor value found
    cases found
  · exact .andThen fun _ => .andThen fun _ => .pure (literals _)

/-- What holds of literals and names, and at a level more of what stands in parentheses, holds of
every expression that is read within so many levels. -/
theorem parenthesizedWithin_gives {post : Nat → Expression → Prop}
    (literals : ∀ levels value, post levels (.literal value))
    (references : ∀ levels name, post levels (.reference name))
    (nests : ∀ levels inner span, post levels inner → post (levels + 1) (.parenthesized inner span))
    (levels : Nat) : Gives (post levels) (parenthesizedWithin levels).parse := by
  induction levels with
  | zero =>
      intro cursor value found
      cases found
  | succ levels ih =>
      have inside : Gives (post levels) (expressionOf (parenthesizedWithin levels)).parse := by
        apply Gives.choice
        intro rule member
        simp only [expressionForms, List.mem_cons, List.not_mem_nil, or_false] at member
        rcases member with rfl | rfl | rfl
        · exact literal_gives (literals levels)
        · exact ih
        · exact reference_gives (references levels)
      have body : Gives (post (levels + 1))
          (parenthesizedBody (expressionOf (parenthesizedWithin levels))) := by
        refine .andThen fun opening => .bind inside.require fun inner holds => ?_
        exact .andThen fun _ => .andThen fun _ => .pure (nests levels inner _ holds)
      intro cursor value found
      simp only [parenthesizedWithin, Rule.startingAt] at found
      split at found
      · cases found
      · exact body _ value found

/-! ## Expressions without python -/

def Plain (expression : Expression) : Prop := expression.pythonCodes = []

theorem expression_gives : Gives Plain Grammar.expression.parse := by
  have parentheses (levels : Nat) : Gives Plain (parenthesizedWithin levels).parse :=
    @parenthesizedWithin_gives (fun _ => Plain) (fun _ _ => rfl) (fun _ _ => rfl)
      (fun _ _ _ plain => plain) levels
  apply Gives.choice
  intro rule member
  simp only [expressionForms, List.mem_cons, List.not_mem_nil, or_false] at member
  rcases member with rfl | rfl | rfl
  · exact literal_gives fun _ => rfl
  · exact fun cursor => parentheses cursor.levels cursor
  · exact reference_gives fun _ => rfl

/-! ## Statements without python -/

private theorem plain_option {value : Option Expression} (plain : ∀ inner ∈ value, Plain inner) :
    Expression.pythonCodesOption value = [] := by
  cases value with
  | none => rfl
  | some inner => exact plain inner rfl

private theorem parameter_gives :
    Gives (fun parameter => Expression.pythonCodesOption parameter.default = []) parameter := by
  refine .andThen fun token => .andThen fun name => .andThen fun assigned => ?_
  cases assigned with
  | some _ => exact .bind expression_gives.require.attempt fun value plain => .pure (plain_option plain)
  | none => exact .pure rfl

theorem label_gives : Gives (·.pythonCodes = []) labelLine.parse := by
  have head_ : Gives (fun head : LabelHead =>
      ∀ parameter ∈ head.parameters, Expression.pythonCodesOption parameter.default = [])
      labelHead :=
    .andThen fun name => .bind (parameter_gives.parenthesizedList parameter_advances)
      fun parameters plain => .andThen fun _ => .pure plain
  refine .andThen fun start => .bind head_ fun head plain => .andThen fun span => .pure ?_
  simpa [Statement.pythonCodes] using plain

theorem return_gives : Gives (·.pythonCodes = []) Grammar.«return».parse :=
  .andThen fun _ => .bind expression_gives.optional fun _ plain =>
    .andThen fun _ => .pure (plain_option plain)

theorem pass_gives : Gives (·.pythonCodes = []) Grammar.pass.parse := .andThen fun _ => .pure rfl

theorem pause_gives : Gives (·.pythonCodes = []) Grammar.pause.parse :=
  .andThen fun _ => .bind expression_gives.optional fun _ plain =>
    .andThen fun _ => .pure (plain_option plain)

theorem callTail_gives :
    Gives (fun parts => ∀ argument ∈ parts.1, Plain argument) callTail := by
  refine .bind (expression_gives.require.parenthesizedList
    (Rule.require_advances expression_advances)) fun arguments plain => .andThen fun site => ?_
  cases site with
  | some _ => exact .andThen fun _ => .pure plain
  | none => exact .pure plain

end Grammar

end NovelScript
