import DatagramStreams.Network.Faults
import Mathlib.Algebra.Order.Field.Rat

/-! What becomes of a datagram where chance has no say: its position, the packet inside and the rates decide.
Main statements: `FaultModel.decide_fst` and `FaultModel.decide_frame`.
-/

set_option autoImplicit false

namespace DatagramStreams

namespace FaultPlan

def Certain (plan : FaultPlan) : Prop :=
  ∀ rate ∈ [plan.lossRate, plan.duplicateRate, plan.delayRate], rate.toRat ≤ 0 ∨ 1 ≤ rate.toRat

instance (plan : FaultPlan) : Decidable plan.Certain :=
  inferInstanceAs (Decidable (∀ _ ∈ _, _))

/-- What such a plan does with a datagram, where `n` have been sent before it. -/
def fate (plan : FaultPlan) (n : Nat) (b : Octets) : Fate :=
  if n ∈ plan.dropIndices ∨ plan.selects b = true ∨ 1 ≤ plan.lossRate.toRat then .lost
  else .delivered (if 1 ≤ plan.duplicateRate.toRat then 2 else 1)
    (n ∈ plan.delayIndices ∨ 1 ≤ plan.delayRate.toRat)

end FaultPlan

namespace FaultModel

def Ranged (m : FaultModel) : Prop := ∀ n, 0 ≤ m.dice n ∧ m.dice n < 1

theorem ranged_even (plan : FaultPlan) : Ranged { plan } := fun _ =>
  show (0 : Rat) ≤ 1 / 2 ∧ (1 / 2 : Rat) < 1 by decide +kernel

theorem dice_lt_iff {x rate : Rat} (hx : 0 ≤ x ∧ x < 1) (hrate : rate ≤ 0 ∨ 1 ≤ rate) : x < rate ↔ 1 ≤ rate := by
  refine ⟨fun hlt => hrate.resolve_left fun hle => ?_, fun hle => lt_of_lt_of_le hx.2 hle⟩
  exact absurd (lt_of_lt_of_le hlt hle) (not_lt_of_ge hx.1)

/-- Chance is asked and has no say. -/
theorem decide_fst {m : FaultModel} (hdice : m.Ranged) (hplan : m.plan.Certain) (b : Octets) :
    (m.decide b).1 = m.plan.fate m.sent b := by
  have hloss (n) := dice_lt_iff (hdice n) (hplan m.plan.lossRate (by simp))
  have htwice (n) := dice_lt_iff (hdice n) (hplan m.plan.duplicateRate (by simp))
  have hlate (n) := dice_lt_iff (hdice n) (hplan m.plan.delayRate (by simp))
  simp only [decide, draw, FaultPlan.fate, List.contains_iff_mem, Bool.or_eq_true, hloss, htwice, hlate]
  by_cases hdrop : m.sent ∈ m.plan.dropIndices ∨ m.plan.selects b = true
  · rw [if_pos hdrop, if_pos (or_assoc.mp (.inl hdrop))]
  · by_cases hlost : 1 ≤ m.plan.lossRate.toRat
    · rw [if_neg hdrop, if_pos hlost, if_pos (.inr (.inr hlost))]
    · rw [if_neg hdrop, if_neg hlost, if_neg fun h => (or_assoc.mpr h).elim hdrop hlost]
      by_cases hdelay : m.sent ∈ m.plan.delayIndices <;> simp [hdelay]

theorem decide_frame (m : FaultModel) (b : Octets) : (m.decide b).2.sent = m.sent + 1 ∧
    (m.decide b).2.plan = m.plan ∧ (m.decide b).2.dice = m.dice := by
  by_cases hdrop : (m.plan.dropIndices.contains m.sent || m.plan.selects b) = true
  · simp only [decide, if_pos hdrop, and_self]
  · by_cases hlost : m.dice m.drawn < m.plan.lossRate.toRat
    · simp only [decide, draw, if_neg hdrop, hlost, if_true, and_self]
    · by_cases hdelay : m.plan.delayIndices.contains m.sent = true <;>
        simp only [decide, draw, if_neg hdrop, hlost, hdelay, if_true, if_false, Bool.false_eq_true, and_self]

end FaultModel

end DatagramStreams
