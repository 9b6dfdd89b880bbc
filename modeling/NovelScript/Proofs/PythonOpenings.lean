import Mathlib.Data.List.DropRight
import NovelScript.Token.Basic

/-!
# What opens python on a line

What a line has shown since the last newline, blanks left out, decides whether python starts there
and how it is scanned.  The context in which a line is cut into lexemes is a description of what it
has shown, precise enough to tell the openings.
-/

namespace NovelScript

/-! ## Openings -/

namespace Kind

/-- The kinds since the last newline, without blanks. -/
def shown (kinds : List Kind) : List Kind :=
  (kinds.rtakeWhile (· != .newline)).filter (· != .whitespace)

@[simp] theorem shown_nil : shown [] = [] := rfl

@[simp] theorem shown_newline (kinds : List Kind) : shown (kinds ++ [.newline]) = [] := by
  simp [shown]

@[simp] theorem shown_whitespace (kinds : List Kind) :
    shown (kinds ++ [.whitespace]) = shown kinds := by
  simp [shown]

theorem shown_concat (kinds : List Kind) {kind : Kind} (newline : kind ≠ .newline)
    (blank : kind ≠ .whitespace) : shown (kinds ++ [kind]) = shown kinds ++ [kind] := by
  simp [shown, newline, blank]

/-- Kinds that do not store into what stands before them. -/
def Unassigned (kinds : List Kind) : Prop := ∀ kind ∈ kinds, kind.isAssignment? ≠ some true

instance (kinds : List Kind) : Decidable (Unassigned kinds) :=
  inferInstanceAs (Decidable (∀ kind ∈ kinds, _))

end Kind

/-- What a line shows where python starts: a dollar sign, a jump or call to a computed target, a
definition up to its assignment operator, or a definition up to a bracket in front of it. -/
inductive OpensPython : List Kind → PythonMode → Prop
  | dollar : OpensPython [.punctuation .dollar] .expression
  | target {head : Kind} (aims : head ∈ [.keyword .jump, .keyword .call]) :
      OpensPython [head, .keyword .expression] .expression
  | value {head : Kind} {between : List Kind} {operator : Operator}
      (binds : head ∈ [.keyword .define, .keyword .default]) (open_ : Kind.Unassigned between)
      (assigns : operator.isAssignment = true) :
      OpensPython (head :: (between ++ [.operator operator])) .expression
  | subscript {head : Kind} {between : List Kind}
      (binds : head ∈ [.keyword .define, .keyword .default]) (open_ : Kind.Unassigned between) :
      OpensPython (head :: (between ++ [.punctuation .openBracket])) .index

namespace OpensPython

/-- What a line with python starts with. -/
def heads : List Kind :=
  [.punctuation .dollar, .keyword .jump, .keyword .call, .keyword .define, .keyword .default]

theorem ne_nil {shown : List Kind} {mode : PythonMode} (opens : OpensPython shown mode) :
    shown ≠ [] := by
  cases opens <;> simp

theorem head_mem {first : Kind} {rest : List Kind} {mode : PythonMode}
    (opens : OpensPython (first :: rest) mode) : first ∈ heads := by
  cases opens with
  | dollar => simp [heads]
  | target member | value member | subscript member =>
      simp only [heads, List.mem_cons, List.not_mem_nil, or_false] at member ⊢
      tauto

theorem of_dollar {rest : List Kind} {mode : PythonMode}
    (opens : OpensPython (.punctuation .dollar :: rest) mode) : rest = [] ∧ mode = .expression := by
  generalize equal : .punctuation .dollar :: rest = shown at opens
  cases opens with
  | dollar => exact ⟨(List.cons.inj equal).2, rfl⟩
  | target member | value member | subscript member =>
      obtain ⟨rfl, -⟩ := List.cons.inj equal
      simp at member

/-- Behind a jump or a call, python starts at the word for a computed target only. -/
theorem of_aims {head : Kind} {rest : List Kind} {mode : PythonMode}
    (aims : head ∈ [.keyword .jump, .keyword .call]) (opens : OpensPython (head :: rest) mode) :
    rest = [.keyword .expression] ∧ mode = .expression := by
  generalize equal : head :: rest = shown at opens
  simp only [List.mem_cons, List.not_mem_nil, or_false] at aims
  cases opens with
  | dollar => rcases aims with rfl | rfl <;> simp at equal
  | target => exact ⟨(List.cons.inj equal).2, rfl⟩
  | value binds | subscript binds =>
      obtain ⟨rfl, -⟩ := List.cons.inj equal
      rcases aims with rfl | rfl <;> simp at binds

/-- Behind the word that opens a definition, python starts at an assignment operator or a
bracket. -/
theorem of_binds {head : Kind} {between : List Kind} {kind : Kind} {mode : PythonMode}
    (binds : head ∈ [.keyword .define, .keyword .default])
    (opens : OpensPython (head :: (between ++ [kind])) mode) :
    Kind.Unassigned between ∧
      (kind.isAssignment? = some true ∧ mode = .expression ∨
        kind = .punctuation .openBracket ∧ mode = .index) := by
  generalize equal : head :: (between ++ [kind]) = shown at opens
  cases opens with
  | dollar => simp at equal
  | target aims =>
      obtain ⟨rfl, -⟩ := List.cons.inj equal
      simp only [List.mem_cons, List.not_mem_nil, or_false] at aims binds
      rcases aims with rfl | rfl <;> simp at binds
  | value _ open_ assigns =>
      obtain ⟨-, rest⟩ := List.cons.inj equal
      obtain ⟨rfl, last⟩ := List.append_inj' rest rfl
      cases last
      exact ⟨open_, .inl ⟨congrArg some assigns, rfl⟩⟩
  | subscript _ open_ =>
      obtain ⟨-, rest⟩ := List.cons.inj equal
      obtain ⟨rfl, last⟩ := List.append_inj' rest rfl
      cases last
      exact ⟨open_, .inr ⟨rfl, rfl⟩⟩

end OpensPython

/-! ## Contexts and what they describe -/

namespace LineContext

/-- A line that opens no python any more, whatever else it shows. -/
def Spent (shown : List Kind) : Prop :=
  ∀ more mode, more ≠ [] → ¬OpensPython (shown ++ more) mode

/-- What a line has shown in a context. -/
def Describes : LineContext → List Kind → Prop
  | .start, shown => shown = [] ∨ shown = [.comment]
  | .awaitingAssignment, shown =>
      ∃ head between, shown = head :: between ∧ head ∈ [.keyword .define, .keyword .default] ∧
        Kind.Unassigned between
  | .awaitingTarget, shown => ∃ head ∈ [.keyword .jump, .keyword .call], shown = [head]
  | .rest, shown => Spent shown

private theorem spent_of_head {first : Kind} {rest : List Kind}
    (other : first ∉ OpensPython.heads) : Spent (first :: rest) :=
  fun _ _ _ opens => other opens.head_mem

private theorem spent_concat {shown : List Kind} (spent : Spent shown) (kind : Kind) :
    Spent (shown ++ [kind]) := by
  intro more mode _
  rw [List.append_assoc]
  exact spent _ mode (by simp)

/-- What a context makes of a kind: it describes the longer line, and opens python where the longer
line does. -/
def Follows (context : LineContext) (shown : List Kind) (kind : Kind) : Prop :=
  (context.next kind).1.Describes (shown ++ [kind]) ∧
    ∀ mode, OpensPython (shown ++ [kind]) mode ↔ (context.next kind).2 = some mode

private theorem follows_rest {shown : List Kind} (spent : Spent shown) {kind : Kind}
    (newline : kind ≠ .newline) : LineContext.rest.Follows shown kind := by
  have same : LineContext.rest.next kind = (.rest, none) := by
    unfold next
    split <;> simp_all
  refine ⟨?_, fun mode => ?_⟩
  · rw [same]
    exact spent_concat spent kind
  · rw [same]
    exact iff_of_false (spent [kind] mode (by simp)) (by simp)

private theorem follows_awaitingTarget {head kind : Kind}
    (aims : head ∈ [.keyword .jump, .keyword .call]) (newline : kind ≠ .newline)
    (blank : kind ≠ .whitespace) : LineContext.awaitingTarget.Follows [head] kind := by
  have next_ : LineContext.awaitingTarget.next kind =
      (.rest, if kind = .keyword .expression then some .expression else none) := by
    unfold next
    split <;> simp_all
  refine ⟨?_, fun mode => ?_⟩
  · rw [next_]
    intro more mode nonempty opens
    exact nonempty (List.cons.inj (opens.of_aims aims).1).2
  · rw [next_]
    constructor
    · intro opens
      obtain ⟨rest, rfl⟩ := opens.of_aims aims
      simp [(List.cons.inj rest).1]
    · intro opened
      split at opened
      · next computed =>
          cases opened
          exact computed ▸ .target aims
      · cases opened

private theorem follows_awaitingAssignment {head kind : Kind} {between : List Kind}
    (binds : head ∈ [.keyword .define, .keyword .default]) (open_ : Kind.Unassigned between)
    (newline : kind ≠ .newline) :
    LineContext.awaitingAssignment.Follows (head :: between) kind := by
  have cons : head :: between ++ [kind] = head :: (between ++ [kind]) := rfl
  by_cases assigns : kind.isAssignment? = some true
  · obtain ⟨operator, rfl⟩ : ∃ operator, kind = .operator operator := by
      cases kind <;> simp_all [Kind.isAssignment?]
    have assigning : operator.isAssignment = true := by simpa [Kind.isAssignment?] using assigns
    have next_ : LineContext.awaitingAssignment.next (.operator operator) =
        (.rest, some .expression) := by
      simp [next, assigning]
    refine ⟨?_, fun mode => ?_⟩
    · rw [next_, cons]
      intro more mode nonempty opens
      obtain ⟨more, last, rfl⟩ := List.eq_nil_or_concat more |>.resolve_left nonempty
      rw [List.concat_eq_append, List.cons_append, ← List.append_assoc] at opens
      exact (opens.of_binds binds).1 (.operator operator) (by simp) assigns
    · rw [next_, cons]
      constructor
      · intro opens
        obtain ⟨-, ⟨-, rfl⟩ | ⟨bracket, -⟩⟩ := opens.of_binds binds
        · rfl
        · cases bracket
      · intro opened
        cases opened
        exact .value binds open_ assigning
  · have next_ : LineContext.awaitingAssignment.next kind =
        (.awaitingAssignment,
          if kind = .punctuation .openBracket then some .index else none) := by
      unfold next
      split <;> simp_all [Kind.isAssignment?]
    refine ⟨?_, fun mode => ?_⟩
    · rw [next_]
      refine ⟨head, between ++ [kind], rfl, binds, ?_⟩
      intro other member
      rcases List.mem_append.1 member with member | member
      · exact open_ other member
      · exact List.mem_singleton.1 member ▸ assigns
    · rw [next_, cons]
      constructor
      · intro opens
        obtain ⟨-, ⟨assigned, -⟩ | ⟨bracket, rfl⟩⟩ := opens.of_binds binds
        · exact absurd assigned assigns
        · simp [bracket]
      · intro opened
        split at opened
        · next bracket =>
            cases opened
            exact bracket ▸ .subscript binds open_
        · cases opened

private theorem follows_start {kind : Kind} (newline : kind ≠ .newline)
    (blank : kind ≠ .whitespace) : LineContext.start.Follows [] kind := by
  have alone {mode : PythonMode} (opens : OpensPython [kind] mode) :
      kind = .punctuation .dollar ∧ mode = .expression := by
    generalize equal : [kind] = line at opens
    cases opens with
    | dollar => exact ⟨(List.cons.inj equal).1, rfl⟩
    | target => simp at equal
    | value | subscript => simp at equal
  refine ⟨?_, fun mode => ⟨fun opens => ?_, fun opened => ?_⟩⟩
  · rw [List.nil_append]
    by_cases starter : kind ∈ OpensPython.heads
    · simp only [OpensPython.heads, List.mem_cons, List.not_mem_nil, or_false] at starter
      rcases starter with rfl | rfl | rfl | rfl | rfl
      · intro more mode nonempty opens
        exact nonempty opens.of_dollar.1
      · exact ⟨_, by simp, rfl⟩
      · exact ⟨_, by simp, rfl⟩
      · exact ⟨_, [], rfl, by simp, by simp [Kind.Unassigned]⟩
      · exact ⟨_, [], rfl, by simp, by simp [Kind.Unassigned]⟩
    · by_cases comment : kind = .comment
      · exact comment ▸ .inr rfl
      · have same : LineContext.start.next kind = (.rest, none) := by
          unfold next
          split <;> simp_all [OpensPython.heads]
        rw [same]
        exact spent_of_head starter
  · obtain ⟨rfl, rfl⟩ := alone opens
    rfl
  · unfold next at opened
    split at opened <;> simp_all
    exact opened ▸ .dollar

/-- Every kind but blanks and newlines takes the description of a line one kind further.  Behind a
comment only invalid input can stand on the same line. -/
theorem Describes.follows {context : LineContext} {shown : List Kind}
    (describes : context.Describes shown) {kind : Kind} (newline : kind ≠ .newline)
    (blank : kind ≠ .whitespace) (bare : shown = [.comment] → kind = .invalid) :
    context.Follows shown kind := by
  cases context with
  | start =>
      rcases describes with rfl | rfl
      · exact follows_start newline blank
      · obtain rfl := bare rfl
        have other : Kind.comment ∉ OpensPython.heads := by decide
        exact ⟨spent_of_head other,
          fun _ => iff_of_false (fun opens => other opens.head_mem) (by simp [next])⟩
  | awaitingAssignment =>
      obtain ⟨head, between, rfl, binds, open_⟩ := describes
      exact follows_awaitingAssignment binds open_ newline
  | awaitingTarget =>
      obtain ⟨head, aims, rfl⟩ := describes
      exact follows_awaitingTarget aims newline blank
  | rest => exact follows_rest describes newline

/-- Layout opens no python, and behind an opening spans of python leave the context alone. -/
theorem next_of_mode {context following : LineContext} {kind : Kind} {mode : PythonMode}
    (step : context.next kind = (following, some mode)) :
    (kind ≠ .newline ∧ kind ≠ .whitespace ∧ kind ≠ .comment) ∧
      ∀ later, later = .python ∨ later = .invalid → following.next later = (following, none) := by
  constructor
  · refine ⟨?_, ?_, ?_⟩ <;> rintro rfl <;> cases context <;> simp [next] at step
  · have stays : following = .rest ∨ following = .awaitingAssignment := by
      unfold next at step
      split at step <;> try split at step
      all_goals simp_all
    rcases stays with rfl | rfl <;> rintro later (rfl | rfl) <;> rfl

theorem Describes.whitespace {context : LineContext} {shown : List Kind}
    (describes : context.Describes shown) : (context.next .whitespace).1.Describes shown := by
  cases context <;> exact describes

end LineContext

end NovelScript
