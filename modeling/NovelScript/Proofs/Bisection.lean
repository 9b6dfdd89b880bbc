import NovelScript.Token.Stream

/-!
# Bisection

Where a test holds of a first part of some items and fails on the rest, bisection finds the place at
which the two parts meet, as a search from the first item on would.
-/

namespace NovelScript.Bisection

variable {α : Type} {holds : α → Bool} {items : Array α} {count base size : Nat}

/-- The test holds of the first `count` items and of none behind them. -/
structure Splits (holds : α → Bool) (items : Array α) (count : Nat) : Prop where
  before : ∀ index < count, (items[index]?).any holds = true
  behind : ∀ index, count ≤ index → (items[index]?).any holds = false

theorem Splits.le_size (splits : Splits holds items count) : count ≤ items.size := by
  refine Nat.le_of_not_lt fun beyond => ?_
  have held := splits.before items.size beyond
  rw [Array.getElem?_eq_none (Nat.le_refl _)] at held
  cases held

/-- Narrowing ends at the last item of the first part, if it never left that item out. -/
theorem narrow_eq (splits : Splits holds items count) (low : base ≤ count - 1)
    (high : count ≤ base + size) : narrow holds items base size = count - 1 := by
  fun_induction narrow holds items base size with
  | case1 base size small => omega
  | case2 base size large half middle ih =>
      have halves : half = size / 2 := rfl
      have between : middle = base + half := rfl
      by_cases held : (items[middle]?).any holds = true
      · rw [dif_pos held] at ih
        rw [if_pos held]
        have inside : middle < count := by
          refine Nat.lt_of_not_le fun outside => ?_
          rw [splits.behind middle outside] at held
          cases held
        exact ih (by omega) (by omega)
      · rw [dif_neg held] at ih
        rw [if_neg held]
        have outside : count ≤ middle :=
          Nat.le_of_not_lt fun inside => held (splits.before middle inside)
        exact ih low (by omega)

theorem narrow_size (splits : Splits holds items count) :
    narrow holds items 0 items.size = count - 1 :=
  narrow_eq splits (Nat.zero_le _) ((Nat.zero_add items.size).symm ▸ splits.le_size)

theorem firstFailing_eq (splits : Splits holds items count) :
    firstFailing holds items = count := by
  unfold firstFailing
  rw [narrow_size splits]
  cases count with
  | zero => simp [splits.behind 0 (Nat.le_refl 0)]
  | succ count => simp [splits.before count (Nat.lt_succ_self count)]

/-- Items of which the test holds wherever it holds of a later one. -/
def Downward (holds : α → Bool) (items : List α) : Prop :=
  items.Pairwise fun first second => holds second = true → holds first = true

theorem Downward.splits {items : List α} (downward : Downward holds items) :
    Splits holds items.toArray (items.takeWhile holds).length := by
  induction items with
  | nil => exact ⟨by simp, by simp⟩
  | cons item rest ih =>
      obtain ⟨first, later⟩ := List.pairwise_cons.1 downward
      have split := ih later
      by_cases held : holds item = true
      · rw [List.takeWhile_cons_of_pos held]
        refine ⟨fun index inside => ?_, fun index outside => ?_⟩
        · cases index with
          | zero => simpa using held
          | succ index => simpa using split.before index (Nat.lt_of_succ_lt_succ inside)
        · cases index with
          | zero => simp at outside
          | succ index => simpa using split.behind index (Nat.le_of_succ_le_succ outside)
      · rw [List.takeWhile_cons_of_neg held]
        refine ⟨by simp, fun index _ => ?_⟩
        -- What fails on the first item fails on all behind it.
        have fails : ∀ other ∈ item :: rest, holds other = false := by
          intro other member
          rcases List.mem_cons.1 member with rfl | behind
          · simpa using held
          · simpa using mt (first other behind) held
        rw [List.getElem?_toArray]
        cases found : (item :: rest)[index]? with
        | none => rfl
        | some other => exact fails other (List.mem_of_getElem? found)

/-- Bisection answers with the item that a search from the first one on answers with. -/
theorem Downward.getElem?_firstFailing {items : List α} (downward : Downward holds items) :
    items[firstFailing holds items.toArray]? = items.find? (!holds ·) := by
  rw [firstFailing_eq downward.splits]
  induction items with
  | nil => rfl
  | cons item rest ih =>
      by_cases held : holds item = true
      · simpa [held] using ih (List.pairwise_cons.1 downward).2
      · simp [held]

end NovelScript.Bisection
