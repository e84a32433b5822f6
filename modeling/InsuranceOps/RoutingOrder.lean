/-
This file compares the routing of two extraction results of the same fields. The
routing is taken over the arithmetic it is computed in; in exact arithmetic the
mean of confidences grows with each of them, and with it the decision never
becomes stricter: review that is not needed stays unneeded, no reason appears,
and the suggested action becomes no more severe.
-/

import InsuranceOps.Validator
import InsuranceOps.Library.Dictionary
import Mathlib.Algebra.Order.BigOperators.Group.List

namespace InsuranceOps

/-! ### Routing over an arithmetic -/

/-- How confidences are averaged and thresholds scaled. -/
structure Arithmetic where
  mean : List ℚ → ℚ
  times : ℚ → ℚ → ℚ

/-- The arithmetic of doubles. -/
def Arithmetic.doubles : Arithmetic where
  mean := overallConfidence
  times first second := doubleOf (first * second)

/-- Exact arithmetic. -/
def Arithmetic.rationals : Arithmetic where
  mean confidences := if confidences = [] then 0 else confidences.sum / confidences.length
  times first second := first * second

/-- The reasons for a review. -/
def reviewReasons (fieldConfidences : List (String × ℚ)) (thresholds : ReviewThresholds)
    (ocrConfidence : Option FloatValue) (aiEnhancementSucceeded : Bool) : List ReviewReason :=
  (if fieldConfidences.length < thresholds.minRequiredFields then [.missingFields] else []) ++
  (if fieldConfidences.any fun entry => entry.2 < thresholds.reviewRequiredBelow then
    [.lowConfidence] else []) ++
  (if ocrConfidence.any (FloatValue.isBelow thresholds.reviewRequiredBelow) then
    [.ocrQuality] else []) ++
  (if aiEnhancementSucceeded then [] else [ReviewReason.aiEnhancementFailed])

/-- What is suggested to the reviewer of a result that is not rejected. -/
def suggestedAction (arithmetic : Arithmetic) (thresholds : ReviewThresholds) (overall : ℚ) :
    String :=
  if arithmetic.times thresholds.autoApproveMin (roundToDouble (9 / 10)) ≤ overall then
    "likely_approve"
  else if overall < arithmetic.times thresholds.rejectBelow (3 / 2) then "likely_reject"
  else "manual_review"

/-- Evaluate whether an extraction result requires manual review, over an arithmetic. -/
def reviewRouting (arithmetic : Arithmetic) (fieldConfidences : List (String × ℚ))
    (thresholds : ReviewThresholds) (ocrConfidence : Option FloatValue)
    (aiEnhancementSucceeded : Bool) : ReviewRouting :=
  let reasons := reviewReasons fieldConfidences thresholds ocrConfidence aiEnhancementSucceeded
  let overall := arithmetic.mean (fieldConfidences.map Prod.snd)
  if overall < thresholds.rejectBelow then {
    requiresReview := true
    reasons := if reasons = [] then [.lowConfidence] else reasons
    overallConfidence := overall
    fieldConfidences := fieldConfidences
    suggestedAction := "reject" }
  else
    let requiresReview := reasons ≠ [] ∨ overall < thresholds.autoApproveMin
    { requiresReview := requiresReview
      reasons := reasons
      overallConfidence := overall
      fieldConfidences := fieldConfidences
      suggestedAction :=
        if requiresReview then suggestedAction arithmetic thresholds overall else "" }

/-- The code's routing is the one over doubles. -/
theorem evaluateReviewRouting_eq (fieldConfidences : List (String × ℚ))
    (thresholds : ReviewThresholds) (ocrConfidence : Option FloatValue)
    (aiEnhancementSucceeded : Bool) :
    evaluateReviewRouting fieldConfidences thresholds ocrConfidence aiEnhancementSucceeded =
      reviewRouting .doubles fieldConfidences thresholds ocrConfidence aiEnhancementSucceeded := rfl

/-! ### Higher confidences -/

/-- The second confidences are of the same fields, each at least the first one of its name. -/
structure Raised (first second : List (String × ℚ)) : Prop where
  firstNames : (first.map Prod.fst).Nodup
  secondNames : (second.map Prod.fst).Nodup
  sameNames : ∀ name, name ∈ first.map Prod.fst ↔ name ∈ second.map Prod.fst
  atLeast : ∀ name lower higher, Dictionary.get? first name = some lower →
    Dictionary.get? second name = some higher → lower ≤ higher

/-- Both results have an OCR confidence and the second one is at least the first one, or neither
has one. -/
def OcrAtLeast : Option FloatValue → Option FloatValue → Prop
  | none, none => True
  | some first, some second => second.atLeast first = true
  | _, _ => False

/-- How severe a suggested action is: reject, likely reject, manual review, likely approve, none. -/
def severity (action : String) : Nat :=
  if action = "reject" then 4
  else if action = "likely_reject" then 3
  else if action = "manual_review" then 2
  else if action = "likely_approve" then 1
  else 0

/-- The second confidences in the order of the first ones. -/
theorem Raised.arranged {first second : List (String × ℚ)} (raised : Raised first second) :
    ∃ arranged, arranged.Perm second ∧
      List.Forall₂ (fun lower higher => lower.1 = higher.1 ∧ lower.2 ≤ higher.2) first
        arranged := by
  have value (entry : String × ℚ) (member : entry ∈ first) :
      ∃ higher, Dictionary.get? second entry.1 = some higher := by
    rw [← Option.isSome_iff_exists, Dictionary.isSome_get?_iff, ← raised.sameNames]
    exact List.mem_map_of_mem member
  let arrange := fun entry : String × ℚ => (entry.1, (Dictionary.get? second entry.1).getD 0)
  have names : (first.map arrange).map Prod.fst = first.map Prod.fst := by
    rw [List.map_map]
    rfl
  refine ⟨first.map arrange, ?_, ?_⟩
  · refine (List.perm_ext_iff_of_nodup (List.Nodup.of_map Prod.fst ?_)
      (raised.secondNames.of_map _)).mpr fun entry => ?_
    · rw [names]
      exact raised.firstNames
    · constructor
      · intro member
        obtain ⟨lower, stored, rfl⟩ := List.mem_map.mp member
        obtain ⟨higher, found⟩ := value lower stored
        rw [← Dictionary.get?_eq_some_iff raised.secondNames, found]
        rfl
      · intro member
        obtain ⟨lower, stored, same⟩ := List.mem_map.mp
          ((raised.sameNames entry.1).mpr (List.mem_map_of_mem member))
        refine List.mem_map.mpr ⟨lower, stored, ?_⟩
        have found := (Dictionary.get?_eq_some_iff raised.secondNames).mpr member
        show (lower.1, (Dictionary.get? second lower.1).getD 0) = entry
        rw [same, found]
        rfl
  · rw [List.forall₂_map_right_iff, List.forall₂_same]
    intro entry member
    obtain ⟨higher, found⟩ := value entry member
    refine ⟨rfl, ?_⟩
    show entry.2 ≤ (Dictionary.get? second entry.1).getD 0
    rw [found]
    exact raised.atLeast entry.1 _ _
      ((Dictionary.get?_eq_some_iff raised.firstNames).mpr member) found

theorem Raised.length_eq {first second : List (String × ℚ)} (raised : Raised first second) :
    first.length = second.length := by
  obtain ⟨arranged, same, above⟩ := raised.arranged
  rw [above.length_eq, same.length_eq]

/-- The mean of higher confidences is at least as high. -/
theorem Raised.mean_le {first second : List (String × ℚ)} (raised : Raised first second) :
    Arithmetic.rationals.mean (first.map Prod.snd) ≤
      Arithmetic.rationals.mean (second.map Prod.snd) := by
  obtain ⟨arranged, same, above⟩ := raised.arranged
  have sums : (first.map Prod.snd).sum ≤ (second.map Prod.snd).sum := by
    rw [← (same.map Prod.snd).sum_eq]
    refine List.Forall₂.sum_le_sum ?_
    rw [List.forall₂_map_left_iff, List.forall₂_map_right_iff]
    exact above.imp fun _ _ higher => higher.2
  have lengths := raised.length_eq
  unfold Arithmetic.rationals
  dsimp only
  simp only [List.length_map, ← List.length_eq_zero_iff, lengths]
  split
  · exact le_rfl
  · exact div_le_div_of_nonneg_right sums (Nat.cast_nonneg _)

/-- A value at least another one is below no bound the other one is not below. -/
theorem FloatValue.isBelow_of_atLeast {first second : FloatValue} {bound : ℚ}
    (above : second.atLeast first = true) (below : second.isBelow bound = true) :
    first.isBelow bound = true := by
  cases second with
  | nan => cases below
  | infinite negative =>
    cases negative with
    | false => cases below
    | true =>
      cases first with
      | infinite other =>
        cases other with
        | false => cases above
        | true => rfl
      | _ => cases above
  | finite higher =>
    cases first with
    | nan => cases above
    | infinite negative =>
      cases negative with
      | false => cases above
      | true => rfl
    | finite lower =>
      have ordered : lower ≤ higher := of_decide_eq_true above
      exact decide_eq_true (ordered.trans_lt (of_decide_eq_true below))

/-- Every reason for a review of the higher confidences is one for a review of the lower ones. -/
theorem reviewReasons_subset {first second : List (String × ℚ)}
    {firstOcr secondOcr : Option FloatValue} (thresholds : ReviewThresholds)
    (aiEnhancementSucceeded : Bool) (raised : Raised first second)
    (ocr : OcrAtLeast firstOcr secondOcr) :
    reviewReasons second thresholds secondOcr aiEnhancementSucceeded ⊆
      reviewReasons first thresholds firstOcr aiEnhancementSucceeded := by
  have low (bound : ℚ) (some : (second.any fun entry => entry.2 < bound) = true) :
      (first.any fun entry => entry.2 < bound) = true := by
    obtain ⟨entry, member, below⟩ := List.any_eq_true.mp some
    obtain ⟨lower, stored, same⟩ := List.mem_map.mp
      ((raised.sameNames entry.1).mpr (List.mem_map_of_mem member))
    refine List.any_eq_true.mpr ⟨lower, stored, decide_eq_true ?_⟩
    refine lt_of_le_of_lt ?_ (of_decide_eq_true below)
    exact raised.atLeast entry.1 _ _
      ((Dictionary.get?_eq_some_iff raised.firstNames).mpr (same ▸ stored))
      ((Dictionary.get?_eq_some_iff raised.secondNames).mpr member)
  have blurred (bound : ℚ) (some : secondOcr.any (FloatValue.isBelow bound) = true) :
      firstOcr.any (FloatValue.isBelow bound) = true := by
    cases secondOcr with
    | none => cases some
    | some higher =>
      cases firstOcr with
      | none => cases ocr
      | some lower => exact FloatValue.isBelow_of_atLeast ocr some
  unfold reviewReasons
  rw [raised.length_eq]
  intro reason member
  simp only [List.mem_append] at member ⊢
  rcases member with ((missing | weak) | quality) | failed
  · exact .inl (.inl (.inl missing))
  · refine .inl (.inl (.inr ?_))
    split at weak
    · rw [if_pos (low _ ‹_›)]
      exact weak
    · cases weak
  · refine .inl (.inr ?_)
    split at quality
    · rw [if_pos (blurred _ ‹_›)]
      exact quality
    · cases quality
  · exact .inr failed

/-- The suggestion for a result that is not rejected grows no more severe with its confidence. -/
theorem severity_suggestedAction_le (thresholds : ReviewThresholds) {lower higher : ℚ}
    (raised : lower ≤ higher) :
    severity (suggestedAction .rationals thresholds higher) ≤
      severity (suggestedAction .rationals thresholds lower) := by
  unfold suggestedAction
  by_cases approve : Arithmetic.rationals.times thresholds.autoApproveMin (roundToDouble (9 / 10)) ≤
      lower
  · rw [if_pos approve, if_pos (approve.trans raised)]
  · rw [if_neg approve]
    by_cases reject : lower < Arithmetic.rationals.times thresholds.rejectBelow (3 / 2)
    · rw [if_pos reject]
      split
      · decide
      · split <;> decide
    · rw [if_neg reject, if_neg (not_lt.mpr ((not_lt.mp reject).trans raised))]
      split <;> decide

/-! ### The routing of higher confidences -/

section Routing

variable (fieldConfidences : List (String × ℚ)) (thresholds : ReviewThresholds)
  (ocrConfidence : Option FloatValue) (aiEnhancementSucceeded : Bool)

/-- A rejected result goes to review. -/
theorem reviewRouting_rejected
    (rejected :
      Arithmetic.rationals.mean (fieldConfidences.map Prod.snd) < thresholds.rejectBelow) :
    let routing := reviewRouting .rationals fieldConfidences thresholds ocrConfidence
      aiEnhancementSucceeded
    routing.requiresReview = true ∧ routing.suggestedAction = "reject" ∧
      reviewReasons fieldConfidences thresholds ocrConfidence aiEnhancementSucceeded ⊆
        routing.reasons := by
  unfold reviewRouting
  dsimp only
  rw [if_pos rejected]
  refine ⟨rfl, rfl, ?_⟩
  dsimp only
  split
  · rename_i none
    rw [none]
    exact List.nil_subset _
  · exact List.Subset.refl _

/-- A result that is not rejected goes to review for its reasons or for its confidence. -/
theorem reviewRouting_kept
    (kept : ¬Arithmetic.rationals.mean (fieldConfidences.map Prod.snd) < thresholds.rejectBelow) :
    let routing := reviewRouting .rationals fieldConfidences thresholds ocrConfidence
      aiEnhancementSucceeded
    let overall := Arithmetic.rationals.mean (fieldConfidences.map Prod.snd)
    let reasons := reviewReasons fieldConfidences thresholds ocrConfidence aiEnhancementSucceeded
    (routing.requiresReview = true ↔ reasons ≠ [] ∨ overall < thresholds.autoApproveMin) ∧
      routing.reasons = reasons ∧
        routing.suggestedAction = if routing.requiresReview = true then
          suggestedAction .rationals thresholds overall else "" := by
  unfold reviewRouting
  dsimp only
  rw [if_neg kept]
  exact ⟨decide_eq_true_iff, rfl, by simp only [decide_eq_true_eq]⟩

end Routing

theorem severity_le_reject (action : String) : severity action ≤ severity "reject" := by
  unfold severity
  split
  · decide
  · split
    · decide
    · split
      · decide
      · split <;> decide

/-- Review routing is monotone in confidence: with higher confidences no review becomes needed, a
result that is not rejected has no new reason, and no more severe action is suggested. In exact
arithmetic the mean grows with each confidence, so every threshold that was met stays met. -/
theorem reviewRouting_monotone {first second : List (String × ℚ)}
    {firstOcr secondOcr : Option FloatValue} (thresholds : ReviewThresholds)
    (aiEnhancementSucceeded : Bool) (raised : Raised first second)
    (ocr : OcrAtLeast firstOcr secondOcr) :
    let before := reviewRouting .rationals first thresholds firstOcr aiEnhancementSucceeded
    let after := reviewRouting .rationals second thresholds secondOcr aiEnhancementSucceeded
    (before.requiresReview = false → after.requiresReview = false) ∧
      (after.suggestedAction ≠ "reject" → after.reasons ⊆ before.reasons) ∧
        severity after.suggestedAction ≤ severity before.suggestedAction := by
  intro before after
  have fewer := reviewReasons_subset thresholds aiEnhancementSucceeded raised ocr
  have higher := raised.mean_le
  by_cases rejected : Arithmetic.rationals.mean (first.map Prod.snd) < thresholds.rejectBelow
  · obtain ⟨review, reject, reasons⟩ :=
      reviewRouting_rejected first thresholds firstOcr aiEnhancementSucceeded rejected
    refine ⟨fun unneeded => ?_, fun notRejected => ?_, ?_⟩
    · rw [review] at unneeded
      cases unneeded
    · have kept : ¬Arithmetic.rationals.mean (second.map Prod.snd) < thresholds.rejectBelow :=
        fun below => notRejected
          (reviewRouting_rejected second thresholds secondOcr aiEnhancementSucceeded below).2.1
      obtain ⟨-, same, -⟩ :=
        reviewRouting_kept second thresholds secondOcr aiEnhancementSucceeded kept
      exact same ▸ List.Subset.trans fewer reasons
    · rw [reject]
      exact severity_le_reject _
  · have kept : ¬Arithmetic.rationals.mean (second.map Prod.snd) < thresholds.rejectBelow :=
      not_lt.mpr ((not_lt.mp rejected).trans higher)
    obtain ⟨needed, reasons, action⟩ :=
      reviewRouting_kept first thresholds firstOcr aiEnhancementSucceeded rejected
    obtain ⟨neededAfter, reasonsAfter, actionAfter⟩ :=
      reviewRouting_kept second thresholds secondOcr aiEnhancementSucceeded kept
    have review (still : after.requiresReview = true) : before.requiresReview = true := by
      refine needed.mpr ((neededAfter.mp still).imp (fun some none => some ?_) higher.trans_lt)
      exact List.subset_nil.mp (none ▸ fewer)
    refine ⟨fun unneeded => ?_, fun _ => ?_, ?_⟩
    · exact Bool.eq_false_iff.mpr fun still => Bool.eq_false_iff.mp unneeded (review still)
    · rw [show after.reasons = _ from reasonsAfter, show before.reasons = _ from reasons]
      exact fewer
    · rw [show after.suggestedAction = _ from actionAfter,
        show before.suggestedAction = _ from action]
      by_cases still : after.requiresReview = true
      · rw [if_pos still, if_pos (review still)]
        exact severity_suggestedAction_le thresholds higher
      · rw [if_neg still]
        exact Nat.zero_le _

/-- A field of which the extractor gets surer. -/
theorem reviewRouting_monotone_sample :
    severity (reviewRouting .rationals [("claim_number", 1)] {} (some (.finite 1))
        true).suggestedAction ≤
      severity (reviewRouting .rationals [("claim_number", 1 / 2)] {} (some (.finite (1 / 2)))
        true).suggestedAction := by
  have raised : Raised [("claim_number", 1 / 2)] [("claim_number", 1)] := by
    refine ⟨by decide, by decide, fun _ => Iff.rfl, fun name lower higher before after => ?_⟩
    rw [Dictionary.get?_cons] at before after
    by_cases asked : "claim_number" = name
    · rw [if_pos asked] at before after
      cases before
      cases after
      decide +kernel
    · rw [if_neg asked] at before
      cases before
  have ocr : OcrAtLeast (some (.finite (1 / 2))) (some (.finite 1)) :=
    show FloatValue.atLeast (.finite 1) (.finite (1 / 2)) = true by decide +kernel
  exact (reviewRouting_monotone {} true raised ocr).2.2

end InsuranceOps
