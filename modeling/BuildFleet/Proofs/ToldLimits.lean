import BuildFleet.Proofs.SpanText
import BuildFleet.Step.Install

/-!
# Limits in the texts of failures

A failure that is due to a limit is told in words that end with the limit. Limits are of any length,
and the words name the limit that was given and not the rougher one that a timer keeps. So the
number at the end is not rounded: read back together with its unit it is the limit to the
nanosecond, and two limits are never told in the same words.
-/

namespace BuildFleet

/-- How limits are told in the texts of the failures that they lead to. -/
structure Failure.TellsLimits (failure : Span → Failure) (lead : String) : Prop where
  /-- What follows the lead says exactly how long the limit is. -/
  told : ∀ limit, ∃ shown, (failure limit).message = lead ++ shown ∧ limit.IsToldBy shown
  /-- Other limits are told in other words. -/
  distinct : Function.Injective fun limit ↦ (failure limit).message

theorem Failure.tellsLimits_of_text {failure : Span → Failure} {lead : String}
    (h : ∀ limit, (failure limit).message = lead ++ limit.text) : TellsLimits failure lead where
  told := fun limit ↦ ⟨limit.text, h limit, limit.isToldBy_text⟩
  distinct := by
    intro limit other hmessage
    have htext : lead ++ limit.text = lead ++ other.text := by
      rw [← h limit, ← h other]
      exact hmessage
    exact Span.text_inj.mp (String.append_right_inj _ |>.mp htext)

/-- What a step makes of a call that is not answered in time tells the limit of the call exactly,
for a check of any target as for an install. -/
theorem InstallStep.limits_told_exactly {σ : Type} (t : Target σ) :
    (∃ unanswered : Span → Failure,
      (∀ limit, checked t limit none = .error (unanswered limit)) ∧
        Failure.TellsLimits unanswered ("Target unreachable: " ++
          (t.platform ++ " device " ++ t.serial ++ " did not answer within "))) ∧
      (∀ limit, installed limit none = .error (.installTimeout limit)) ∧
        Failure.TellsLimits .installTimeout "Install timed out after " := by
  let unanswered (limit : Span) : Failure := .targetUnreachable
    (t.platform ++ " device " ++ t.serial ++ " did not answer within " ++ limit.text)
  refine ⟨⟨unanswered, fun limit ↦ rfl, ?_⟩, fun limit ↦ rfl, ?_⟩
  · exact Failure.tellsLimits_of_text fun limit ↦ (String.append_assoc ..).symm
  · exact Failure.tellsLimits_of_text fun limit ↦ rfl

-- zeros are kept inside of the decimal places and left out behind them
example : (Failure.installTimeout ⟨1000200⟩).message = "Install timed out after 1.0002ms" := by
  decide

end BuildFleet
