import Mathlib

/-! Sorting by a comparator as a C++ program sees it: some fixed algorithm, of which only is known
that it permutes the range into an order that the comparator does not contradict. How it orders
equivalent elements is its own affair. -/

namespace SentinelLab.Library.Sorting

/-- What a comparator has to be: `before a b` puts `a` strictly before `b`. -/
structure StrictWeakOrder {α : Type} (before : α → α → Bool) : Prop where
  asymm : ∀ a b, before a b = true → before b a = false
  between : ∀ a b c, before a c = true → before a b = true ∨ before b c = true

/-- An algorithm that sorts by any comparator; as a function it is deterministic. -/
structure SortAlgorithm where
  sort : {α : Type} → (α → α → Bool) → List α → List α
  perm : ∀ {α : Type} (before : α → α → Bool) (entries : List α), StrictWeakOrder before →
    (sort before entries).Perm entries
  ordered : ∀ {α : Type} (before : α → α → Bool) (entries : List α), StrictWeakOrder before →
    (sort before entries).Pairwise fun first second => before second first = false

variable {α : Type} {before before' : α → α → Bool} {entries : List α} {a b : α}

theorem strictWeakOrder_key {β : Type} [LinearOrder β] (key : α → β) :
    StrictWeakOrder fun a b => decide (key b < key a) := by
  constructor
  · intro a b later
    rw [decide_eq_true_eq] at later
    exact decide_eq_false later.asymm
  · intro a b c later
    rw [decide_eq_true_eq] at later
    rw [decide_eq_true_eq, decide_eq_true_eq]
    rcases lt_or_ge (key b) (key a) with first | not_first
    · exact .inl first
    · exact .inr (later.trans_le not_first)

theorem not_after_trans (order : StrictWeakOrder before) (first second third : α) (left : (!before second first) = true)
    (right : (!before third second) = true) : (!before third first) = true := by
  rw [Bool.not_eq_true'] at left right ⊢
  by_contra after
  rcases order.between third second first (by simpa using after) with one | other
  · rw [right] at one
    cases one
  · rw [left] at other
    cases other

theorem not_after_total (order : StrictWeakOrder before) (first second : α) :
    (!before second first || !before first second) = true := by
  cases later : before second first with
  | false => rfl
  | true => simp [order.asymm second first later]

def stable : SortAlgorithm where
  sort := fun before entries => entries.mergeSort fun first second => !before second first
  perm := fun _ entries _ => List.mergeSort_perm entries _
  ordered := by
    intro α before entries order
    have sorted := List.pairwise_mergeSort (not_after_trans order) (not_after_total order) entries
    exact sorted.imp fun apart => by simpa using apart

def backwards : SortAlgorithm where
  sort := fun before entries => stable.sort before entries.reverse
  perm := fun before entries order => (stable.perm before entries.reverse order).trans (List.reverse_perm entries)
  ordered := fun before entries order => stable.ordered before entries.reverse order

theorem stable_pair (order : StrictWeakOrder before) (kept : before b a = false) (pair : [a, b].Sublist entries) :
    [a, b].Sublist (stable.sort before entries) :=
  List.pair_sublist_mergeSort (not_after_trans order) (not_after_total order) (by simp [kept]) pair

theorem not_before_of_pair (algorithm : SortAlgorithm) (order : StrictWeakOrder before)
    (pair : [a, b].Sublist (algorithm.sort before entries)) : before b a = false := by
  have sorted := (algorithm.ordered before entries order).sublist pair
  simpa using sorted

theorem pair_or_reverse (first : a ∈ entries) (second : b ∈ entries) (different : a ≠ b) :
    [a, b].Sublist entries ∨ [b, a].Sublist entries := by
  induction entries with
  | nil => cases first
  | cons head rest ih =>
    rcases List.mem_cons.mp first with rfl | first_later
    · rcases List.mem_cons.mp second with rfl | second_later
      · exact absurd rfl different
      · exact .inl ((List.singleton_sublist.mpr second_later).cons_cons _)
    · rcases List.mem_cons.mp second with rfl | second_later
      · exact .inr ((List.singleton_sublist.mpr first_later).cons_cons _)
      · rcases ih first_later second_later with pair | pair
        · exact .inl (pair.cons head)
        · exact .inr (pair.cons head)

theorem exists_reversing (order : StrictWeakOrder before) (first : a ∈ entries) (second : b ∈ entries)
    (different : a ≠ b) (kept : before a b = false) :
    ∃ algorithm : SortAlgorithm, [b, a].Sublist (algorithm.sort before entries) := by
  rcases pair_or_reverse first second different with pair | pair
  · refine ⟨backwards, stable_pair order kept ?_⟩
    simpa using pair.reverse
  · exact ⟨stable, stable_pair order kept pair⟩

/-- Comparators that sort a range alike under every algorithm put the same elements before each
other: where one of them has a tie and the other not, some algorithm breaks the tie the other way. -/
theorem before_of_sort_eq (order : StrictWeakOrder before) (order' : StrictWeakOrder before')
    (alike : ∀ algorithm : SortAlgorithm, algorithm.sort before entries = algorithm.sort before' entries)
    (first : a ∈ entries) (second : b ∈ entries) (apart : before a b = true) : before' a b = true := by
  by_contra tie
  have kept : before' a b = false := by simpa using tie
  have different : a ≠ b := by
    rintro rfl
    have itself := order.asymm a a apart
    rw [apart] at itself
    cases itself
  obtain ⟨algorithm, pair⟩ := exists_reversing order' first second different kept
  rw [← alike] at pair
  have not_before := not_before_of_pair algorithm order pair
  rw [apart] at not_before
  cases not_before

end SentinelLab.Library.Sorting
