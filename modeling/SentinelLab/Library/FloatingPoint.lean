import Mathlib

/-! What a C++ program does with a type of numbers besides arithmetic: library functions,
conversions and printing. The operators and literals come from the usual classes, so the same
code runs on machine numbers and on the reals. -/

namespace SentinelLab.Library.FloatingPoint

/-- `ofNat` and `toU64` are the conversions from and to unsigned integers, `fixed` prints a
number with a number of decimals. -/
structure Libm (F : Type) where
  sqrt : F → F
  log : F → F
  ofNat : Nat → F
  toU64 : F → Nat
  fixed : Nat → F → String

section
variable {F : Type} [LT F] [DecidableLT F]

/-- `std::max`: the first argument unless the second is above it. -/
def stdMax (first second : F) : F := if first < second then second else first

def stdMin (first second : F) : F := if second < first then second else first

end

/-! ## Running extrema -/

section
variable {F : Type} [LinearOrder F] [DecidableLT F]

theorem stdMax_eq_max (first second : F) : stdMax first second = max first second := by
  unfold stdMax
  split
  · next above => exact (max_eq_right above.le).symm
  · next below => exact (max_eq_left (le_of_not_gt below)).symm

theorem foldl_stdMax_isGreatest (seed : F) (values : List F) :
    IsGreatest (insert seed {value | value ∈ values}) (values.foldl stdMax seed) := by
  induction values generalizing seed with
  | nil => simp
  | cons value rest ih =>
    obtain ⟨reached, bound⟩ := ih (stdMax seed value)
    have above : max seed value ≤ rest.foldl stdMax (stdMax seed value) := by
      rw [← stdMax_eq_max]
      exact bound (Set.mem_insert ..)
    constructor
    · rcases reached with first | later
      · rw [List.foldl_cons, first, stdMax_eq_max]
        rcases max_choice seed value with left | right
        · exact .inl left
        · exact .inr (by rw [right]; exact List.mem_cons_self)
      · exact .inr (List.mem_cons_of_mem _ later)
    · intro other member
      rcases member with first | later
      · rw [first]
        exact (le_max_left ..).trans above
      · rcases List.mem_cons.mp later with head | tail
        · rw [head]
          exact (le_max_right ..).trans above
        · exact bound (.inr tail)

/-- A running maximum is the greatest of the values exactly if one of them reaches the seed. -/
theorem foldl_stdMax_iff (seed : F) (values : List F) :
    IsGreatest {value | value ∈ values} (values.foldl stdMax seed) ↔ ∃ value ∈ values, seed ≤ value := by
  obtain ⟨reached, bound⟩ := foldl_stdMax_isGreatest seed values
  constructor
  · intro greatest
    exact ⟨_, greatest.1, bound (Set.mem_insert ..)⟩
  · intro some
    obtain ⟨value, member, above⟩ := some
    refine ⟨?_, fun other member => bound (.inr member)⟩
    rcases reached with first | later
    · have equal : values.foldl stdMax seed = value := le_antisymm (first.trans_le above) (bound (.inr member))
      rw [equal]
      exact member
    · exact later

theorem foldl_stdMin_isLeast (seed : F) (values : List F) :
    IsLeast (insert seed {value | value ∈ values}) (values.foldl stdMin seed) :=
  @foldl_stdMax_isGreatest Fᵒᵈ _ (fun first second => (inferInstance : DecidableLT F) second first) seed values

theorem foldl_stdMin_iff (seed : F) (values : List F) :
    IsLeast {value | value ∈ values} (values.foldl stdMin seed) ↔ ∃ value ∈ values, value ≤ seed :=
  @foldl_stdMax_iff Fᵒᵈ _ (fun first second => (inferInstance : DecidableLT F) second first) seed values

end

def decimal (decimals : Nat) (scaled : Int) : String :=
  let digits := toString (scaled.natAbs % 10 ^ decimals)
  (if scaled < 0 then "-" else "") ++ toString (scaled.natAbs / 10 ^ decimals) ++ "." ++
    String.ofList (List.replicate (decimals - digits.length) '0') ++ digits

noncomputable def exact : Libm ℝ where
  sqrt := Real.sqrt
  log := Real.log
  ofNat := Nat.cast
  toU64 := fun number => ⌊number⌋₊ % 2 ^ 64
  fixed := fun decimals number => decimal decimals (round (number * 10 ^ decimals))

end SentinelLab.Library.FloatingPoint
