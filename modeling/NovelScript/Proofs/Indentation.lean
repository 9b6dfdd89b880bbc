import NovelScript.Proofs.Blocks
import NovelScript.Proofs.Coverage

/-!
# Documents by indentation

The statements of a document, in preorder, are those of the statement lines of its script, in the
order of the lines.  Indentation alone says inside which labels a statement stands, and its own line
alone says what it is.
-/

namespace NovelScript

/-! ## Every line starts somewhere else -/

namespace Token

theorem visible_sorted (source : List Char) :
    (visible source).Pairwise fun first second => first.start.offset < second.start.offset :=
  (ofText_tile source).sorted.2.filter _

end Token

namespace Line

theorem ofTokens_first_sublist (tokens : List Token) :
    ((ofTokens tokens).map Line.first).Sublist tokens := by
  fun_induction ofTokens tokens with
  | case1 => simp
  | case2 token rest newline ih => exact ih.cons token
  | case3 token rest other ih =>
      simp only [List.map_cons]
      exact (ih.trans (List.dropWhile_sublist _)).cons_cons token

theorem starts_nodup (source : List Char) :
    ((ofTokens (Token.visible source)).map (·.first.start)).Nodup := by
  have sorted := (Token.visible_sorted source).sublist (ofTokens_first_sublist _)
  rw [List.pairwise_map] at sorted
  rw [List.Nodup, List.pairwise_map]
  refine sorted.imp fun {first second} earlier same => ?_
  rw [same] at earlier
  exact Nat.lt_irrefl _ earlier

theorem split_unique {source : List Char} {line other : Line} {before after outer rest : List Line}
    (one : ofTokens (Token.visible source) = before ++ line :: after)
    (two : ofTokens (Token.visible source) = outer ++ other :: rest)
    (same : line.first.start = other.first.start) :
    before = outer ∧ line = other ∧ after = rest := by
  have nodup := starts_nodup source
  have apart {first second : Line} {front middle back : List Line}
      (split : ofTokens (Token.visible source) = front ++ first :: (middle ++ second :: back)) :
      first.first.start ≠ second.first.start := by
    intro equal
    rw [split] at nodup
    simp [equal, List.nodup_append] at nodup
  have both := one.symm.trans two
  rcases List.append_eq_append_iff.1 both with ⟨middle, front, back⟩ | ⟨middle, front, back⟩
  · cases middle with
    | nil => simp_all
    | cons first middle =>
        simp only [List.cons_append, List.cons.injEq] at back
        obtain ⟨rfl, rfl⟩ := back
        exact absurd same (apart one)
  · cases middle with
    | nil => simp_all
    | cons first middle =>
        simp only [List.cons_append, List.cons.injEq] at back
        obtain ⟨rfl, rfl⟩ := back
        exact absurd same.symm (apart two)

/-! ## The cap -/

/-- Whether a line stands inside a label that itself is inside as many labels as there may be. -/
def Capped (before : List Line) (line : Line) : Prop :=
  ∃ outer label between, before = outer ++ label :: between ∧ label.IsLabel ∧
    Deeper label.indent (between ++ [line]) ∧ (enclosing outer label).length = maxNesting

theorem capped_iff (before : List Line) (line : Line) :
    Capped before line ↔ maxNesting < (enclosing before line).length := by
  constructor
  · rintro ⟨outer, label, between, rfl, isLabel, deeper, full⟩
    rw [enclosing_inside isLabel outer between deeper, List.length_append, List.length_cons, full]
    omega
  · intro longer
    have place : (enclosing before line).length - maxNesting - 1 <
        (enclosing before line).length := by omega
    have split := List.take_append_drop ((enclosing before line).length - maxNesting - 1)
      (enclosing before line)
    rw [List.drop_eq_getElem_cons place] at split
    obtain ⟨outer, between, equal, isLabel, deeper, further⟩ := enclosing_split split.symm
    refine ⟨outer, _, between, equal, isLabel, deeper, ?_⟩
    rw [← further, List.length_drop]
    omega

end Line

/-! ## Sites by their lines -/

namespace Site

private theorem mem_among {above before lines : List Line} {site : Site} :
    site ∈ among above before lines ↔ ∃ start after, lines = start ++ site.line :: after ∧
      site.around = Line.enclosing (before ++ start) site.line ++ above ∧ site.line.IsHead ∧
      site.around.length ≤ maxNesting := by
  induction lines generalizing before with
  | nil => simp [among]
  | cons line rest ih =>
      rw [among_cons, List.mem_append, ih]
      constructor
      · rintro (here | ⟨start, after, rfl, around, holds⟩)
        · split_ifs at here with holds
          · simp only [List.mem_singleton] at here
            subst here
            exact ⟨[], rest, rfl, by simp, holds⟩
          · simp at here
        · exact ⟨line :: start, after, rfl, by simpa using around, holds⟩
      · rintro ⟨start, after, split, around, head, short⟩
        cases start with
        | nil =>
            simp only [List.nil_append, List.cons.injEq] at split
            obtain ⟨rfl, rfl⟩ := split
            rw [List.append_nil] at around
            rw [around] at short
            rw [if_pos ⟨head, short⟩, ← around]
            exact .inl (by simp)
        | cons first start =>
            simp only [List.cons_append, List.cons.injEq] at split
            obtain ⟨rfl, rfl⟩ := split
            exact .inr ⟨start, after, rfl, by simpa using around, head, short⟩

/-- The sites of a script are its statement lines that are not capped. -/
theorem mem_ofLines {lines : List Line} {site : Site} :
    site ∈ ofLines lines ↔ ∃ before after, lines = before ++ site.line :: after ∧
      site.around = Line.enclosing before site.line ∧ site.line.IsHead ∧
      ¬Line.Capped before site.line := by
  rw [ofLines, mem_among]
  simp only [List.nil_append, List.append_nil, Line.capped_iff, Nat.not_lt]
  refine exists_congr fun before => exists_congr fun after => and_congr_right fun _ => ?_
  refine and_congr_right fun around => and_congr_right fun _ => ?_
  rw [around]

theorem line_of_mem {lines : List Line} {site : Site} (member : site ∈ ofLines lines) :
    site.line ∈ lines ∧ site.line.IsHead := by
  obtain ⟨before, after, rfl, -, head, -⟩ := mem_ofLines.1 member
  exact ⟨List.mem_append_right before List.mem_cons_self, head⟩

end Site

/-! ## The statements of a document -/

namespace Document

open Grammar Line

/-- A statement, and the labels around it, as a site has them. -/
structure Spells (source : List Char) (site : Site) (node : List Statement × Statement) : Prop where
  opener : node.2.opener = site.line.first.kind
  start : node.2.span.start = site.line.first.start
  around : node.1.map (·.span.start) = site.around.map (·.first.start)
  own : (statement.parse
      { source, upcoming := site.line.tokens, depth := site.around.length }).1.map Statement.own =
    some node.2.own

private theorem spells_of_visited {source : List Char} {last : Cursor} {site : Site}
    {node : List Statement × Statement} (visited : Visited last site node)
    (same : last.source = source) (head : site.line.IsHead) : Spells source site node := by
  obtain ⟨cursor, tail, at_, there, depth, own, -⟩ := visited.read
  refine ⟨visited.opened.1, visited.opened.2, visited.around, ?_⟩
  have alone := ownLine_alone at_ head
  rw [there, same, depth] at alone
  rw [alone] at own
  rw [← own]
  exact statementWith_own _ _

theorem ofText_block (source : List Char) :
    BlockRead [] none (Cursor.ofTokens source (Token.ofText source))
      (block none (Cursor.ofTokens source (Token.ofText source))).2
      (ofText source).1.statements (Line.ofTokens (Token.visible source)) :=
  block_reads (Cursor.ofTokens source (Token.ofText source)) rfl Token.visible_wellFormed

private theorem ofText_spells (source : List Char) :
    List.Forall₂ (Spells source) (Site.ofLines (Line.ofTokens (Token.visible source)))
      (ofText source).1.lineage := by
  have read := ofText_block source
  have visits := read.visits [] rfl
  rw [List.forall₂_iff_get] at visits ⊢
  refine ⟨visits.1, fun place inside bounded => ?_⟩
  exact spells_of_visited (visits.2 place inside bounded) read.leads.source
    (Site.line_of_mem (List.get_mem _ ⟨place, inside⟩)).2

private theorem spells_of_start {source : List Char} {before after : List Line} {line : Line}
    (split : Line.ofTokens (Token.visible source) = before ++ line :: after)
    {node : List Statement × Statement} (member : node ∈ (ofText source).1.lineage)
    (starts : node.2.span.start = line.first.start) :
    Spells source ⟨enclosing before line, line⟩ node ∧ ¬Capped before line := by
  obtain ⟨site, found, spells⟩ : ∃ site ∈ Site.ofLines (Line.ofTokens (Token.visible source)),
      Spells source site node := by
    obtain ⟨place, bounded, rfl⟩ := List.getElem_of_mem member
    have all := List.forall₂_iff_get.1 (ofText_spells source)
    exact ⟨_, List.get_mem _ ⟨place, all.1 ▸ bounded⟩, all.2 place (all.1 ▸ bounded) bounded⟩
  obtain ⟨outer, rest, there, around, -, open_⟩ := Site.mem_ofLines.1 found
  obtain ⟨rfl, rfl, -⟩ := split_unique split there (starts.symm.trans spells.start)
  refine ⟨?_, open_⟩
  rw [← around]
  exact spells

/-- A document follows the lines of its script. Its statements are those of the statement lines, one
for each and in their order; only lines inside a label with the most labels around it have none; and
a statement stands inside a label if the lines from behind the label to its own are all deeper. -/
theorem ofText_follows_lines (source : List Char) :
    List.Forall₂ (Spells source) (Site.ofLines (Line.ofTokens (Token.visible source)))
        (ofText source).1.lineage ∧
      (∀ before line after, Line.ofTokens (Token.visible source) = before ++ line :: after →
        line.IsHead →
          ((∃ node ∈ (ofText source).1.lineage, node.2.span.start = line.first.start) ↔
            ¬Capped before line)) ∧
      ∀ outer label between line after,
        Line.ofTokens (Token.visible source) = outer ++ label :: between ++ line :: after →
          label.IsLabel → ∀ node ∈ (ofText source).1.lineage,
            node.2.span.start = line.first.start →
              ((∃ upper ∈ node.1, upper.span.start = label.first.start) ↔
                Deeper label.indent (between ++ [line])) := by
  refine ⟨ofText_spells source, ?_, ?_⟩
  · intro before line after split head
    constructor
    · rintro ⟨node, member, starts⟩
      exact (spells_of_start split member starts).2
    · intro open_
      have found : (⟨enclosing before line, line⟩ : Site) ∈
          Site.ofLines (Line.ofTokens (Token.visible source)) :=
        Site.mem_ofLines.2 ⟨before, after, split, rfl, head, open_⟩
      obtain ⟨place, bounded, equal⟩ := List.getElem_of_mem found
      have all := List.forall₂_iff_get.1 (ofText_spells source)
      have spells := all.2 place bounded (all.1 ▸ bounded)
      refine ⟨_, List.get_mem _ ⟨place, all.1 ▸ bounded⟩, spells.start.trans ?_⟩
      rw [List.get_eq_getElem, equal]
  · intro outer label between line after split isLabel node member starts
    obtain ⟨spells, -⟩ := spells_of_start split member starts
    have inside (upper : Position) : (∃ statement ∈ node.1, statement.span.start = upper) ↔
        ∃ other ∈ enclosing (outer ++ label :: between) line, other.first.start = upper := by
      rw [← List.mem_map, ← List.mem_map, spells.around]
    rw [inside]
    constructor
    · rintro ⟨other, around, same⟩
      obtain ⟨inner, further, parts⟩ := List.append_of_mem around
      obtain ⟨front, later, equal, -, deeper, -⟩ := enclosing_split parts
      rw [equal, List.append_assoc, List.cons_append] at split
      have again := split
      rw [← List.cons_append, ← List.append_assoc, ← equal, List.append_assoc,
        List.cons_append] at again
      obtain ⟨rfl, rfl, rest⟩ := split_unique again split same.symm
      rw [List.append_cancel_right rest]
      exact deeper
    · intro deeper
      refine ⟨label, ?_, rfl⟩
      rw [enclosing_inside isLabel outer between deeper]
      exact List.mem_append_right _ List.mem_cons_self

end Document

end NovelScript
