import SentinelLab.Library.Cosine
import SentinelLab.QuantProfiler

/-! The cosine similarity of `QuantProfiler` over the reals, and the verdict for rescaled logits. -/

namespace SentinelLab.QuantSimilarity
open QuantProfiler Library.FloatingPoint Library.Sorting Library.Cosine

theorem calculateCosineSimilarity_eq {fp32Logits quantLogits : List ℝ} (nonempty : fp32Logits ≠ [])
    (same : fp32Logits.length = quantLogits.length) :
    calculateCosineSimilarity exact fp32Logits quantLogits = cosine fp32Logits quantLogits := by
  unfold calculateCosineSimilarity
  rw [if_neg (by simp [nonempty, same])]
  rfl

/-- The similarity is in the range of a cosine and symmetric, positive factors do not change it or the
verdict, and it is 1 for positive multiples and nothing else. -/
theorem similarity_bounded_scale_free (fp32Logits quantLogits : List ℝ) (nonempty : fp32Logits ≠ [])
    (same : fp32Logits.length = quantLogits.length) :
    calculateCosineSimilarity exact fp32Logits quantLogits ∈ Set.Icc (-1) 1 ∧
      calculateCosineSimilarity exact quantLogits fp32Logits =
        calculateCosineSimilarity exact fp32Logits quantLogits ∧
      (∀ factor : ℝ, 0 < factor →
        calculateCosineSimilarity exact (fp32Logits.map (factor * ·)) quantLogits =
            calculateCosineSimilarity exact fp32Logits quantLogits ∧
          calculateCosineSimilarity exact fp32Logits (quantLogits.map (factor * ·)) =
            calculateCosineSimilarity exact fp32Logits quantLogits) ∧
      ((∃ a ∈ fp32Logits, a ≠ 0) →
        (calculateCosineSimilarity exact fp32Logits quantLogits = 1 ↔
          ∃ factor : ℝ, 0 < factor ∧ quantLogits = fp32Logits.map (factor * ·))) ∧
      ∀ (algorithm : SortAlgorithm) (config : QuantConfig ℝ) (backendName precisionType : String)
        (fp32XaiAttr quantXaiAttr : List ℝ) (latencyUs factor : ℝ), 0 < factor →
        (evaluateBackendDrift exact algorithm config backendName precisionType fp32Logits
            (quantLogits.map (factor * ·)) fp32XaiAttr quantXaiAttr latencyUs).precisionSlaSatisfied =
          (evaluateBackendDrift exact algorithm config backendName precisionType fp32Logits quantLogits fp32XaiAttr
            quantXaiAttr latencyUs).precisionSlaSatisfied := by
  have nonempty' : quantLogits ≠ [] := by
    rintro rfl
    exact nonempty (List.eq_nil_of_length_eq_zero same)
  have scaled (factor : ℝ) (positive : 0 < factor) :
      calculateCosineSimilarity exact fp32Logits (quantLogits.map (factor * ·)) =
        calculateCosineSimilarity exact fp32Logits quantLogits := by
    rw [calculateCosineSimilarity_eq nonempty (by rwa [List.length_map]), cosine_scale_right same positive,
      calculateCosineSimilarity_eq nonempty same]
  refine ⟨?_, ?_, ?_, ?_, ?_⟩
  · rw [calculateCosineSimilarity_eq nonempty same]
    exact ⟨neg_one_le_cosine same, cosine_le_one same⟩
  · rw [calculateCosineSimilarity_eq nonempty same, calculateCosineSimilarity_eq nonempty' same.symm, cosine_comm same]
  · intro factor positive
    refine ⟨?_, scaled factor positive⟩
    rw [calculateCosineSimilarity_eq (by simpa using nonempty) (by rwa [List.length_map]), cosine_scale_left same positive,
      calculateCosineSimilarity_eq nonempty same]
  · intro nonzero
    rw [calculateCosineSimilarity_eq nonempty same, cosine_eq_one_iff same, and_iff_right nonzero]
  · intro algorithm config backendName precisionType fp32XaiAttr quantXaiAttr latencyUs factor positive
    unfold evaluateBackendDrift
    dsimp only
    rw [scaled factor positive]

theorem similarity_bounded_scale_free_doubled :
    calculateCosineSimilarity exact [1, -1] [2, -2] ∈ Set.Icc (-1) 1 ∧
      calculateCosineSimilarity exact [1, -1] [2, -2] = 1 := by
  obtain ⟨bounded, _, _, multiple, _⟩ :=
    similarity_bounded_scale_free [1, -1] [2, -2] (List.cons_ne_nil _ _) rfl
  exact ⟨bounded, (multiple (by simp)).mpr ⟨2, by norm_num, by norm_num⟩⟩

end SentinelLab.QuantSimilarity
