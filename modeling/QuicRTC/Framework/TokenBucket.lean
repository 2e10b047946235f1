import Mathlib.Algebra.Order.Field.Basic
import Mathlib.Tactic.Linarith

/-! # Token Buckets

A bucket holds at most `cap` tokens and gains `rate` tokens in a unit of time. What was spent within
a window of time is at most a full bucket and what the window brings in.
-/

namespace TokenBucket

variable {K : Type} [Field K] [LinearOrder K]

/-- When, what was taken, and what it left. -/
structure Use (K : Type) where
  time : K
  cost : K
  after : K

/-- In the order of time; refills may be lost. -/
def Metered (rate cap : K) : K → K → List (Use K) → Prop
  | _, _, [] => True
  | tokens, last, u :: us =>
    (last ≤ u.time ∧ 0 ≤ u.cost ∧ 0 ≤ u.after ∧ u.after + u.cost ≤ cap ∧
      u.after + u.cost ≤ tokens + rate * (u.time - last)) ∧ Metered rate cap u.after u.time us

/-- What was taken from time `a` to time `b`. -/
def spent (a b : K) : List (Use K) → K
  | [] => 0
  | u :: us => (if a ≤ u.time ∧ u.time ≤ b then u.cost else 0) + spent a b us

variable {rate cap a b tokens last : K} {us : List (Use K)}

theorem spent_of_lt (h : Metered rate cap tokens last us) (hb : b < last) : spent a b us = 0 := by
  induction us generalizing tokens last with
  | nil => rfl
  | cons u us ih =>
    have hlt := lt_of_lt_of_le hb h.1.1
    rw [spent, if_neg (fun hw => absurd hw.2 (not_le.mpr hlt)), ih h.2 hlt, add_zero]

variable [IsStrictOrderedRing K] (hrate : 0 ≤ rate)
include hrate

/-- What is there, and what the window brings in. -/
theorem spent_le_of_level (h : Metered rate cap tokens last us) (htokens : 0 ≤ tokens)
    (hb : last ≤ b) : spent a b us ≤ tokens + rate * (b - last) := by
  induction us generalizing tokens last with
  | nil => exact add_nonneg htokens (mul_nonneg hrate (sub_nonneg.mpr hb))
  | cons u us ih =>
    obtain ⟨⟨htime, hcost, hafter, -, hspend⟩, hrest⟩ := h
    rw [spent]
    rcases le_or_gt u.time b with hin | hout
    · have hbound := ih hrest hafter hin
      have hle : (if a ≤ u.time ∧ u.time ≤ b then u.cost else 0) ≤ u.cost := by
        split
        · exact le_refl _
        · exact hcost
      linarith [mul_sub rate u.time last, mul_sub rate b u.time, mul_sub rate b last]
    · rw [if_neg (fun hw => absurd hw.2 (not_le.mpr hout)), spent_of_lt hrest hout, add_zero]
      exact add_nonneg htokens (mul_nonneg hrate (sub_nonneg.mpr hb))

/-- **Window bound.** -/
theorem spent_le (h : Metered rate cap tokens last us) (hcap : 0 ≤ cap) (hab : a ≤ b) :
    spent a b us ≤ cap + rate * (b - a) := by
  have hzero : 0 ≤ cap + rate * (b - a) := add_nonneg hcap (mul_nonneg hrate (sub_nonneg.mpr hab))
  induction us generalizing tokens last with
  | nil => exact hzero
  | cons u us ih =>
    obtain ⟨⟨-, -, hafter, hfull, -⟩, hrest⟩ := h
    rw [spent]
    by_cases hw : a ≤ u.time ∧ u.time ≤ b
    · have hbound := spent_le_of_level (a := a) hrate hrest hafter hw.2
      have hlate := mul_le_mul_of_nonneg_left (sub_le_sub_left hw.1 b) hrate
      rw [if_pos hw]
      linarith
    · rw [if_neg hw, zero_add]
      exact ih hrest

end TokenBucket
