import Mathlib

/-! Positions in descending order: how many entries have a greater key. -/

namespace SentinelLab.Library.Ranking

variable {α β : Type} [LinearOrder β] {key : α → β} {entries sorted : List α} {a b : α}

def position (key : α → β) (entries : List α) (a : α) : Nat := entries.countP fun b => key a < key b

theorem position_perm (perm : entries.Perm sorted) : position key entries a = position key sorted a :=
  perm.countP_eq _

theorem position_lt_length (member : a ∈ entries) : position key entries a < entries.length := by
  rw [position, List.countP_eq_length_filter]
  apply List.length_filter_lt_length_iff_exists.mpr
  exact ⟨a, member, by simp⟩

theorem position_lt_of_lt (greater : key b < key a) (member : a ∈ entries) :
    position key entries a < position key entries b := by
  have skipped : (entries.filter fun c => key b < key c).countP (fun c => decide (key a < key c)) =
      entries.countP fun c => key a < key c := by
    rw [List.countP_filter]
    apply List.countP_congr
    intro c _
    simp only [Bool.and_eq_true, decide_eq_true_eq, and_iff_left_iff_imp]
    exact greater.trans
  calc position key entries a = position key (entries.filter fun c => key b < key c) a := skipped.symm
    _ < (entries.filter fun c => key b < key c).length :=
        position_lt_length (List.mem_filter.mpr ⟨member, by simpa using greater⟩)
    _ = position key entries b := (List.countP_eq_length_filter).symm

theorem position_lt_iff (first : a ∈ entries) (second : b ∈ entries) :
    position key entries a < position key entries b ↔ key b < key a := by
  constructor
  · intro earlier
    by_contra not_greater
    rcases lt_or_eq_of_le (not_lt.mp not_greater) with less | same
    · exact absurd (position_lt_of_lt less second) (not_lt.mpr earlier.le)
    · rw [position, position, same] at earlier
      exact lt_irrefl _ earlier
  · intro greater
    exact position_lt_of_lt greater first

theorem position_getElem (descending : sorted.Pairwise fun a b => key b < key a) {p : Nat}
    (inside : p < sorted.length) : position key sorted sorted[p] = p := by
  have before : (sorted.take p).countP (fun b => decide (key sorted[p] < key b)) = p := by
    rw [List.countP_eq_length.mpr, List.length_take, min_eq_left inside.le]
    intro b member
    obtain ⟨q, earlier, rfl⟩ := List.mem_take_iff_getElem.mp member
    have less : q < p := lt_of_lt_of_le earlier (min_le_left _ _)
    exact decide_eq_true (List.pairwise_iff_getElem.mp descending q p _ inside less)
  have after : (sorted.drop p).countP (fun b => decide (key sorted[p] < key b)) = 0 := by
    rw [List.countP_eq_zero]
    intro b member
    obtain ⟨q, later, rfl⟩ := List.mem_drop_iff_getElem.mp member
    rw [decide_eq_true_eq, not_lt]
    rcases Nat.eq_zero_or_pos q with rfl | positive
    · exact le_rfl
    · exact (List.pairwise_iff_getElem.mp descending p (p + q) inside _ (by omega)).le
  calc position key sorted sorted[p]
      = (sorted.take p ++ sorted.drop p).countP fun b => key sorted[p] < key b := by
        rw [List.take_append_drop]
        rfl
    _ = p := by rw [List.countP_append, before, after, Nat.add_zero]

theorem position_injective (descending : sorted.Pairwise fun a b => key b < key a) (first : a ∈ sorted)
    (second : b ∈ sorted) (same : position key sorted a = position key sorted b) : a = b := by
  obtain ⟨p, inside, rfl⟩ := List.mem_iff_getElem.mp first
  obtain ⟨q, inside', rfl⟩ := List.mem_iff_getElem.mp second
  rw [position_getElem descending inside, position_getElem descending inside'] at same
  simp only [same]

/-! ## Two keys of the same entries -/

variable {key' : α → β} {ranked ranked' : List α}

theorem countP_zip_eq (descending : ranked.Pairwise fun a b => key b < key a)
    (descending' : ranked'.Pairwise fun a b => key' b < key' a) (perm : ranked.Perm ranked') [DecidableEq α] :
    ((ranked.zip ranked').countP fun (a, b) => a != b) =
      ranked.countP fun a => position key ranked a ≠ position key' ranked' a := by
  have long := perm.length_eq
  let partner (a : α) : α := ranked'.getD (position key ranked a) a
  have partners : ranked' = ranked.map partner := by
    apply List.ext_getElem
    · rw [List.length_map, long]
    · intro p inside' inside
      rw [List.length_map] at inside
      rw [List.getElem_map]
      simp only [partner, position_getElem descending inside, List.getD_eq_getElem _ _ inside']
  have pairs : ranked.zip ranked' = ranked.map fun a => (a, partner a) := by
    calc ranked.zip ranked' = (ranked.map id).zip (ranked.map partner) := by rw [List.map_id, ← partners]
      _ = ranked.map fun a => (a, partner a) := List.zip_map' ..
  rw [pairs, List.countP_map]
  apply List.countP_congr
  intro a member
  -- the entry at the position of `a` is `a` exactly if the other key gives it the same position
  have inside : position key ranked a < ranked'.length := long ▸ position_lt_length member
  have found : partner a = ranked'[position key ranked a] := List.getD_eq_getElem _ _ inside
  have places : position key' ranked' (partner a) = position key ranked a := by
    rw [found, position_getElem descending' inside]
  have same_iff : a = partner a ↔ position key ranked a = position key' ranked' a := by
    constructor
    · intro same
      rw [← places, ← same]
    · intro same
      have listed : partner a ∈ ranked' := found ▸ List.getElem_mem inside
      exact position_injective descending' (perm.mem_iff.mp member) listed (same.symm.trans places.symm)
  simp only [Function.comp_apply, bne_iff_ne, ne_eq, decide_eq_true_eq, same_iff]

/-- If one entry is displaced, so is the one whose place it takes. -/
theorem exists_other_displaced (descending : ranked.Pairwise fun a b => key b < key a) (perm : ranked.Perm ranked')
    (descending' : ranked'.Pairwise fun a b => key' b < key' a) (member : a ∈ ranked)
    (displaced : position key ranked a ≠ position key' ranked' a) :
    ∃ b ∈ ranked, b ≠ a ∧ position key ranked b ≠ position key' ranked' b := by
  have inside : position key' ranked' a < ranked.length :=
    perm.length_eq ▸ position_lt_length (perm.mem_iff.mp member)
  have place := position_getElem descending inside
  have listed := List.getElem_mem inside
  refine ⟨ranked[position key' ranked' a], listed, ?_, ?_⟩
  · intro same
    rw [same] at place
    exact displaced place
  · intro kept
    rw [place] at kept
    have same := position_injective descending' (perm.mem_iff.mp member) (perm.mem_iff.mp listed) kept
    rw [← same] at place
    exact displaced place

end SentinelLab.Library.Ranking
