import AstropathRelay.Api.LoginWindow

/-! The seconds in a `Retry-After` header against the time at which the limiter lets the source in
again. -/

namespace AstropathRelay.Api

open Lib

def truncate (q : ℚ) : ℤ := q.num.tdiv q.den

def Limiter.lockedUntilMax (l : Limiter) (key : String) : ℚ :=
  max ((l.lockedUntil key).getD 0) l.globalLockedUntil

def Limiter.retryAfter (l : Limiter) (key : String) (now : ℚ) : ℤ :=
  max 0 (truncate (l.lockedUntilMax key - now))

lemma truncate_of_nonneg {q : ℚ} (h : 0 ≤ q) : truncate q = ⌊q⌋ := by
  rw [truncate, Rat.floor_def', Int.tdiv_eq_ediv_of_nonneg (Rat.num_nonneg.mpr h)]

lemma truncate_nonpos {q : ℚ} (h : q ≤ 0) : truncate q ≤ 0 := by
  have hn : 0 ≤ (-q.num).tdiv q.den :=
    Int.tdiv_nonneg (neg_nonneg.mpr (Rat.num_nonpos.mpr h)) (Int.natCast_nonneg _)
  rw [Int.neg_tdiv] at hn
  exact neg_nonneg.mp hn

section RetryAfter

variable (l : Limiter) (key : String) (now : ℚ)

lemma isAllowed_iff : l.isAllowed key now ↔ l.lockedUntilMax key ≤ now := by
  simp only [Limiter.isAllowed, Limiter.lockedUntilMax, max_le_iff]
  split
  · next h => simp [h]
  · next h => simp [not_lt.mp h]

lemma retryAfter_of_passed (h : l.lockedUntilMax key ≤ now) : l.retryAfter key now = 0 :=
  max_eq_left (truncate_nonpos (sub_nonpos.mpr h))

lemma retryAfter_of_locked (h : now ≤ l.lockedUntilMax key) :
    l.retryAfter key now = ⌊l.lockedUntilMax key - now⌋ := by
  have hq : 0 ≤ l.lockedUntilMax key - now := sub_nonneg.mpr h
  rw [Limiter.retryAfter, truncate_of_nonneg hq, max_eq_right (Int.floor_nonneg.mpr hq)]

theorem isAllowed_second_later : l.isAllowed key (now + l.retryAfter key now + 1) := by
  rw [isAllowed_iff]
  rcases le_total (l.lockedUntilMax key) now with h | h
  · rw [retryAfter_of_passed l key now h]
    push_cast
    linarith
  · rw [retryAfter_of_locked l key now h]
    have hf := Int.lt_floor_add_one (l.lockedUntilMax key - now)
    linarith

lemma isAllowed_retryAfter_iff :
    l.isAllowed key (now + l.retryAfter key now) ↔
      l.lockedUntilMax key ≤ now ∨ ∃ n : ℕ, l.lockedUntilMax key = now + n := by
  rw [isAllowed_iff]
  rcases le_or_gt (l.lockedUntilMax key) now with h | h
  · simp [retryAfter_of_passed l key now h, h]
  · rw [retryAfter_of_locked l key now h.le]
    constructor
    · intro hle
      right
      have hnonneg : 0 ≤ ⌊l.lockedUntilMax key - now⌋ := Int.floor_nonneg.mpr (sub_nonneg.mpr h.le)
      obtain ⟨n, hn⟩ := Int.eq_ofNat_of_zero_le hnonneg
      refine ⟨n, le_antisymm ?_ ?_⟩
      · rwa [hn] at hle
      · have hf := Int.floor_le (l.lockedUntilMax key - now)
        rw [hn] at hf
        push_cast at hf
        linarith
    · rintro (hle | ⟨n, hn⟩)
      · exact absurd h (not_lt.mpr hle)
      · rw [hn, add_sub_cancel_left, Int.floor_natCast]
        push_cast
        rfl

end RetryAfter

/-- In every state of the limiter the source that waits for the seconds of the header is let in
exactly when its lock has run out already or ends a whole number of seconds later. -/
theorem retryAfter_sufficient_iff (L : Limits) (calls : Calls) (key : String) (now : ℚ) :
    ((after L calls).isAllowed key (now + (after L calls).retryAfter key now) ∧
      ((after L calls).retryAfter key now = 0 → (after L calls).isAllowed key now)) ↔
      (after L calls).lockedUntilMax key ≤ now ∨
        ∃ n : ℕ, (after L calls).lockedUntilMax key = now + n := by
  rw [← isAllowed_retryAfter_iff]
  refine ⟨fun h => h.1, fun h => ⟨h, fun h₀ => ?_⟩⟩
  rwa [h₀, Int.cast_zero, add_zero] at h

theorem retryAfter_short :
    Nondecreasing (burst 5) ∧
    ((after {} (burst 5)).retryAfter guesser (1 / 2) = 59 ∧
      (after {} (burst 5)).isAllowed guesser (1 / 2 + 59) = false) ∧
    (after {} (burst 5)).retryAfter guesser (119 / 2) = 0 ∧
      (after {} (burst 5)).isAllowed guesser (119 / 2) = false := by
  refine ⟨?_, ?_, ?_⟩ <;> decide +kernel

end AstropathRelay.Api
