import Mathlib

/-! Ranges of a C++ program as lists: a loop whose rounds may fault, the first entries of a sorted
range, the position of a least entry, and the sum of the least entries, compared by counting. -/

namespace SentinelLab.Library.Ranges

theorem mapM_eq_map {α β : Type*} {m : Type _ → Type _} [Monad m] [LawfulMonad m] {entries : List α}
    {partly : α → m β} {total : α → β} (same : ∀ entry ∈ entries, partly entry = pure (total entry)) :
    entries.mapM partly = pure (entries.map total) := by
  induction entries with
  | nil => rfl
  | cons first rest ih =>
    have first_same := same first List.mem_cons_self
    have rest_same := ih fun entry member => same entry (List.mem_cons_of_mem first member)
    simp [List.mapM_cons, first_same, rest_same]

section
variable {α : Type*} [LinearOrder α]

theorem countP_of_above {first : α} {rest : List α} (sorted : (first :: rest).Pairwise (· ≤ ·)) {bound : α}
    (above : ¬first ≤ bound) : (first :: rest).countP (fun entry => entry ≤ bound) = 0 := by
  rw [List.countP_eq_zero]
  intro entry member low
  rcases List.mem_cons.mp member with rfl | later
  · exact above (of_decide_eq_true low)
  · exact above (((List.pairwise_cons.mp sorted).1 entry later).trans (of_decide_eq_true low))

theorem le_of_mem_take {entries : List α} (sorted : entries.Pairwise (· ≤ ·)) {bound : α} {count : Nat}
    (enough : count ≤ entries.countP fun entry => entry ≤ bound) :
    ∀ entry ∈ entries.take count, entry ≤ bound := by
  induction entries generalizing count with
  | nil => simp
  | cons first rest ih =>
    have ordered := List.pairwise_cons.mp sorted
    cases count with
    | zero => simp
    | succ count =>
      by_cases low : first ≤ bound
      · have fewer : count ≤ rest.countP fun entry => entry ≤ bound := by
          rw [List.countP_cons_of_pos (by simpa using low)] at enough
          omega
        intro entry member
        rw [List.take_succ_cons] at member
        rcases List.mem_cons.mp member with same | later
        · exact same ▸ low
        · exact ih ordered.2 fewer entry later
      · rw [countP_of_above sorted low] at enough
        omega

theorem countP_take {entries : List α} (sorted : entries.Pairwise (· ≤ ·)) (count : Nat) (bound : α) :
    (entries.take count).countP (fun entry => entry ≤ bound) = min count (entries.countP fun entry => entry ≤ bound) := by
  rcases Nat.le_total count (entries.countP fun entry => entry ≤ bound) with enough | few
  · have all : ∀ entry ∈ entries.take count, decide (entry ≤ bound) = true := fun entry member =>
      decide_eq_true (le_of_mem_take sorted enough entry member)
    have longer : count ≤ entries.length := enough.trans List.countP_le_length
    rw [List.countP_eq_length.mpr all, List.length_take, min_eq_left longer, min_eq_left enough]
  · rw [min_eq_right few]
    induction entries generalizing count with
    | nil => simp
    | cons first rest ih =>
      have ordered := List.pairwise_cons.mp sorted
      by_cases low : first ≤ bound
      · rw [List.countP_cons_of_pos (by simpa using low)] at few ⊢
        obtain ⟨count, rfl⟩ := Nat.exists_eq_add_of_le' (Nat.one_le_of_lt (Nat.lt_of_succ_le few))
        rw [List.take_succ_cons, List.countP_cons_of_pos (by simpa using low), ih ordered.2 count (by omega)]
      · have nothing := countP_of_above sorted low
        rw [nothing, ← Nat.le_zero, ← nothing]
        exact (List.take_sublist _ _).countP_le

theorem countP_least (entries : List α) (count : Nat) (bound : α) :
    ((entries.mergeSort fun first second => first ≤ second).take count).countP (fun entry => entry ≤ bound) =
      min count (entries.countP fun entry => entry ≤ bound) := by
  rw [countP_take (List.pairwise_mergeSort' (· ≤ ·) entries), (List.mergeSort_perm entries _).countP_eq]

theorem forall₂_le {entries others : List α} (sorted : entries.Pairwise (· ≤ ·)) (sorted' : others.Pairwise (· ≤ ·))
    (same : entries.length = others.length)
    (more : ∀ bound, (others.countP fun entry => entry ≤ bound) ≤ entries.countP fun entry => entry ≤ bound) :
    List.Forall₂ (· ≤ ·) entries others := by
  induction entries generalizing others with
  | nil =>
    rw [List.length_eq_zero_iff.mp same.symm]
    exact .nil
  | cons first rest ih =>
    obtain ⟨first', rest', rfl⟩ := List.exists_cons_of_length_eq_add_one same.symm
    have ordered := List.pairwise_cons.mp sorted
    have ordered' := List.pairwise_cons.mp sorted'
    have below : first ≤ first' := by
      by_contra above
      have some_entry := more first'
      rw [List.countP_cons_of_pos (by simp), countP_of_above sorted above] at some_entry
      omega
    refine .cons below (ih ordered.2 ordered'.2 (Nat.succ.inj same) ?_)
    intro bound
    by_cases low : first' ≤ bound
    · have counted := more bound
      rw [List.countP_cons_of_pos (by simpa using low),
        List.countP_cons_of_pos (by simpa using below.trans low)] at counted
      omega
    · have nothing := countP_of_above sorted' low
      rw [List.countP_cons_of_neg (by simpa using low)] at nothing
      rw [nothing]
      exact Nat.zero_le _

/-- As many entries up to every bound, of those that the sum takes. -/
def MoreUpTo (entries others : List α) (count : Nat) : Prop :=
  ∀ bound, min count (others.countP fun entry => entry ≤ bound) ≤ entries.countP fun entry => entry ≤ bound

theorem MoreUpTo.forall₂_least {entries others : List α} {count : Nat} (more : MoreUpTo entries others count)
    (few : count ≤ entries.length) (few' : count ≤ others.length) :
    List.Forall₂ (· ≤ ·) ((entries.mergeSort fun first second => first ≤ second).take count)
      ((others.mergeSort fun first second => first ≤ second).take count) := by
  apply forall₂_le
  · exact (List.pairwise_mergeSort' (· ≤ ·) entries).sublist (List.take_sublist _ _)
  · exact (List.pairwise_mergeSort' (· ≤ ·) others).sublist (List.take_sublist _ _)
  · simp [few, few']
  · intro bound
    rw [countP_least, countP_least]
    exact le_min (min_le_left _ _) (more bound)

/-- The first position of a least entry after `index`, or `best` if none of them is below `least`. -/
def minElementFrom (best : Nat) (least : α) (index : Nat) : List α → Nat
  | [] => best
  | entry :: rest =>
      if entry < least then minElementFrom index entry (index + 1) rest
      else minElementFrom best least (index + 1) rest

/-- The distance from the begin of a range to its `std::min_element`. -/
def minElement : List α → Nat
  | [] => 0
  | entry :: rest => minElementFrom 0 entry 1 rest

theorem minElementFrom_spec (entries : List α) (best : Nat) (least : α) (index : Nat) :
    (minElementFrom best least index entries = best ∧ ∀ entry ∈ entries, least ≤ entry) ∨
      ∃ offset entry, entries[offset]? = some entry ∧
        minElementFrom best least index entries = index + offset ∧ entry < least ∧
        ∀ other ∈ entries, entry ≤ other := by
  induction entries generalizing best least index with
  | nil => exact Or.inl ⟨rfl, by simp⟩
  | cons first rest ih =>
    unfold minElementFrom
    by_cases lower : first < least
    · rw [if_pos lower]
      right
      rcases ih index first (index + 1) with ⟨same, least_rest⟩ | ⟨offset, entry, found, same, below, least_rest⟩
      · exact ⟨0, first, rfl, same, lower, by simpa using least_rest⟩
      · refine ⟨offset + 1, entry, found, by omega, below.trans lower, ?_⟩
        simpa using ⟨below.le, least_rest⟩
    · rw [if_neg lower]
      rcases ih best least (index + 1) with ⟨same, least_rest⟩ | ⟨offset, entry, found, same, below, least_rest⟩
      · left
        exact ⟨same, by simpa using ⟨not_lt.mp lower, least_rest⟩⟩
      · right
        refine ⟨offset + 1, entry, found, by omega, below, ?_⟩
        simpa using ⟨below.le.trans (not_lt.mp lower), least_rest⟩

theorem minElement_spec {entries : List α} (nonempty : entries ≠ []) :
    ∃ least, entries[minElement entries]? = some least ∧ ∀ entry ∈ entries, least ≤ entry := by
  cases entries with
  | nil => exact absurd rfl nonempty
  | cons first rest =>
    unfold minElement
    rcases minElementFrom_spec rest 0 first 1 with ⟨same, least_rest⟩ | ⟨offset, entry, found, same, below, least_rest⟩
    · exact ⟨first, by simp [same], by simpa using least_rest⟩
    · refine ⟨entry, ?_, by simpa using ⟨below.le, least_rest⟩⟩
      change (first :: rest)[minElementFrom 0 first 1 rest]? = some entry
      rw [same, Nat.add_comm]
      exact found

theorem minElementFrom_first (entries : List α) (best : Nat) (least : α) (index : Nat) (before : best ≤ index)
    {offset : Nat} {value : α} (at_offset : entries[offset]? = some value)
    (earlier : index + offset < minElementFrom best least index entries) :
    ∃ position entry, minElementFrom best least index entries = index + position ∧
      entries[position]? = some entry ∧ entry < value := by
  induction entries generalizing best least index offset with
  | nil => cases at_offset
  | cons first rest ih =>
    unfold minElementFrom at earlier ⊢
    by_cases lower : first < least
    · rw [if_pos lower] at earlier ⊢
      cases offset with
      | zero =>
        obtain rfl : first = value := Option.some.inj at_offset
        rcases minElementFrom_spec rest index first (index + 1) with ⟨same, _⟩ | ⟨later, entry, found, same, below, _⟩
        · omega
        · exact ⟨later + 1, entry, by omega, found, below⟩
      | succ offset =>
        rcases ih index first (index + 1) (by omega) at_offset (by omega) with ⟨position, entry, same, found, below⟩
        exact ⟨position + 1, entry, by omega, found, below⟩
    · rw [if_neg lower] at earlier ⊢
      cases offset with
      | zero =>
        obtain rfl : first = value := Option.some.inj at_offset
        rcases minElementFrom_spec rest best least (index + 1) with ⟨same, _⟩ | ⟨later, entry, found, same, below, _⟩
        · omega
        · exact ⟨later + 1, entry, by omega, found, below.trans_le (not_lt.mp lower)⟩
      | succ offset =>
        rcases ih best least (index + 1) (by omega) at_offset (by omega) with ⟨position, entry, same, found, below⟩
        exact ⟨position + 1, entry, by omega, found, below⟩

theorem minElement_first {entries : List α} {position : Nat} {value : α} (at_position : entries[position]? = some value)
    (earlier : position < minElement entries) :
    ∃ least, entries[minElement entries]? = some least ∧ least < value := by
  cases entries with
  | nil => cases at_position
  | cons first rest =>
    rw [show minElement (first :: rest) = minElementFrom 0 first 1 rest from rfl] at earlier ⊢
    cases position with
    | zero =>
      obtain rfl : first = value := Option.some.inj at_position
      rcases minElementFrom_spec rest 0 first 1 with ⟨same, _⟩ | ⟨later, entry, found, same, below, _⟩
      · omega
      · exact ⟨entry, by rw [same, Nat.add_comm]; exact found, below⟩
    | succ position =>
      rcases minElementFrom_first rest 0 first 1 (by omega) at_position (by omega) with
        ⟨later, entry, same, found, below⟩
      exact ⟨entry, by rw [same, Nat.add_comm]; exact found, below⟩

/-- The first place of a least entry, which is what a search for the minimum is to find. -/
structure FirstLeast (entries : List α) (index : Nat) (least : α) : Prop where
  found : entries[index]? = some least
  below : ∀ entry ∈ entries, least ≤ entry
  first : ∀ earlier < index, ∀ entry, entries[earlier]? = some entry → least < entry

theorem minElement_firstLeast {entries : List α} (nonempty : entries ≠ []) :
    ∃ least, FirstLeast entries (minElement entries) least := by
  obtain ⟨least, found, below⟩ := minElement_spec nonempty
  refine ⟨least, found, below, ?_⟩
  intro earlier before entry at_earlier
  obtain ⟨other, found', above⟩ := minElement_first at_earlier before
  rwa [Option.some.inj (found.symm.trans found')]

theorem FirstLeast.unique {entries : List α} {index index' : Nat} {least least' : α}
    (here : FirstLeast entries index least) (there : FirstLeast entries index' least') : index = index' := by
  have same : least = least' :=
    le_antisymm (here.below _ (List.mem_of_getElem? there.found)) (there.below _ (List.mem_of_getElem? here.found))
  subst same
  rcases lt_trichotomy index index' with before | equal | behind
  · exact absurd (there.first index before least here.found) (lt_irrefl _)
  · exact equal
  · exact absurd (here.first index' behind least there.found) (lt_irrefl _)

end

section
variable {α : Type*} [CommRing α] [LinearOrder α] [IsStrictOrderedRing α]

theorem sum_le_of_le {entries : List α} {bound : α} (below : ∀ entry ∈ entries, entry ≤ bound) :
    entries.sum ≤ entries.length * bound := by
  rw [← nsmul_eq_mul]
  exact List.sum_le_card_nsmul entries bound below

theorem mul_le_sum {entries : List α} {bound : α} (nonneg : ∀ entry ∈ entries, 0 ≤ entry) :
    ((entries.length : α) - entries.countP fun entry => entry < bound) * bound ≤ entries.sum := by
  induction entries with
  | nil => simp
  | cons first rest ih =>
    have rest_sum := ih fun entry member => nonneg entry (List.mem_cons_of_mem first member)
    have first_nonneg := nonneg first List.mem_cons_self
    by_cases low : first < bound
    · rw [List.countP_cons_of_pos (by simpa using low), List.sum_cons, List.length_cons]
      push_cast
      linarith
    · rw [List.countP_cons_of_neg (by simpa using low), List.sum_cons, List.length_cons]
      have high := not_lt.mp low
      push_cast
      linarith

theorem sum_le_of_forall₂ {entries others : List α} (below : List.Forall₂ (· ≤ ·) entries others) :
    entries.sum ≤ others.sum := by
  induction below with
  | nil => exact le_rfl
  | cons first _ ih =>
    rw [List.sum_cons, List.sum_cons]
    exact add_le_add first ih

theorem eq_of_sum_eq {entries others : List α} (below : List.Forall₂ (· ≤ ·) entries others)
    (same : entries.sum = others.sum) : entries = others := by
  induction below with
  | nil => rfl
  | cons first rest ih =>
    have rest_sum := sum_le_of_forall₂ rest
    rw [List.sum_cons, List.sum_cons] at same
    have first_eq := first.antisymm (by linarith)
    subst first_eq
    rw [ih (add_left_cancel same)]

def leastSum (entries : List α) (count : Nat) : α := ((entries.mergeSort fun first second => first ≤ second).take count).sum

variable {entries others : List α} {count : Nat}

theorem MoreUpTo.leastSum_le (more : MoreUpTo entries others count) (few : count ≤ entries.length)
    (few' : count ≤ others.length) : leastSum entries count ≤ leastSum others count :=
  sum_le_of_forall₂ (more.forall₂_least few few')

theorem MoreUpTo.leastSum_lt (more : MoreUpTo entries others count) (not_fewer : ¬MoreUpTo others entries count)
    (few : count ≤ entries.length) (few' : count ≤ others.length) :
    leastSum entries count < leastSum others count := by
  apply lt_of_le_of_ne (more.leastSum_le few few')
  intro same
  apply not_fewer
  intro bound
  have equal := eq_of_sum_eq (more.forall₂_least few few') same
  rw [← countP_least entries, equal, countP_least]
  exact min_le_right _ _

end

end SentinelLab.Library.Ranges
