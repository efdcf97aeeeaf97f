import Mathlib.Data.Rat.Floor
import Mathlib.Tactic.FieldSimp
import Mathlib.Tactic.Linarith
import Mathlib.Tactic.Positivity
import Mathlib.Tactic.Ring

/-! The nearest of strictly increasing places, the even one from the middle of two. -/

namespace Wikitext

/-- No place of `f` is nearer to `q` than that of `r`, and `r` is even if another one is as near. -/
structure IsNearestEven (f : ℕ → ℚ) (q : ℚ) (r : ℕ) : Prop where
  nearest : ∀ s, |q - f r| ≤ |q - f s|
  even : ∀ s, s ≠ r → |q - f s| = |q - f r| → r % 2 = 0

section NearestEven

variable {f : ℕ → ℚ} {q : ℚ} {r : ℕ}

theorem abs_sub_of_le (hf : StrictMono f) {n s : ℕ} (hs : s ≤ n) (hq : f n ≤ q) :
    |q - f s| = q - f s ∧ f s ≤ f n := by
  have hle : f s ≤ f n := hf.monotone hs
  exact ⟨abs_of_nonneg (by linarith), hle⟩

theorem abs_sub_of_ge (hf : StrictMono f) {n s : ℕ} (hs : n ≤ s) (hq : q ≤ f n) :
    |q - f s| = f s - q ∧ f n ≤ f s := by
  have hle : f n ≤ f s := hf.monotone hs
  exact ⟨by rw [abs_sub_comm]; exact abs_of_nonneg (by linarith), hle⟩

theorem isNearestEven_lower (hf : StrictMono f) (hlow : f r ≤ q) (hhigh : q < f (r + 1))
    (h : 2 * q < f r + f (r + 1) ∨ 2 * q = f r + f (r + 1) ∧ r % 2 = 0) : IsNearestEven f q r := by
  have hr := (abs_sub_of_le hf le_rfl hlow).1
  constructor
  · intro s
    by_cases hs : s ≤ r
    · obtain ⟨habs, hle⟩ := abs_sub_of_le hf hs hlow
      rw [hr, habs]
      linarith
    · obtain ⟨habs, hle⟩ := abs_sub_of_ge hf (Nat.lt_of_not_le hs) hhigh.le
      rw [hr, habs]
      rcases h with h | ⟨h, -⟩ <;> linarith
  · intro s hne heq
    by_cases hs : s ≤ r
    · have hlt : f s < f r := hf (lt_of_le_of_ne hs hne)
      rw [hr, (abs_sub_of_le hf hs hlow).1] at heq
      linarith
    · obtain ⟨habs, hle⟩ := abs_sub_of_ge hf (Nat.lt_of_not_le hs) hhigh.le
      rw [hr, habs] at heq
      rcases h with h | ⟨-, h⟩
      · linarith
      · exact h

theorem isNearestEven_upper (hf : StrictMono f) (hlow : f r ≤ q) (hhigh : q < f (r + 1))
    (h : f r + f (r + 1) < 2 * q ∨ 2 * q = f r + f (r + 1) ∧ (r + 1) % 2 = 0) :
    IsNearestEven f q (r + 1) := by
  have hr := (abs_sub_of_ge hf le_rfl hhigh.le).1
  constructor
  · intro s
    by_cases hs : s ≤ r
    · obtain ⟨habs, hle⟩ := abs_sub_of_le hf hs hlow
      rw [hr, habs]
      rcases h with h | ⟨h, -⟩ <;> linarith
    · obtain ⟨habs, hle⟩ := abs_sub_of_ge hf (Nat.lt_of_not_le hs) hhigh.le
      rw [hr, habs]
      linarith
  · intro s hne heq
    by_cases hs : s ≤ r
    · obtain ⟨habs, hle⟩ := abs_sub_of_le hf hs hlow
      rw [hr, habs] at heq
      rcases h with h | ⟨-, h⟩
      · linarith
      · exact h
    · have hlt : f (r + 1) < f s := hf (lt_of_le_of_ne (Nat.lt_of_not_le hs) hne.symm)
      rw [hr, (abs_sub_of_ge hf (Nat.lt_of_not_le hs) hhigh.le).1] at heq
      linarith

/-- The remainder tells on which side of the midpoint between two neighbours `q` lies. -/
theorem isNearestEven_of_remainder (hf : StrictMono f) {step : ℚ} {rest den : ℕ}
    (hrest : rest < den) (hnext : f (r + 1) = f r + step) (hq : q = f r + step * (rest / den)) :
    IsNearestEven f q (if 2 * rest < den ∨ 2 * rest = den ∧ r % 2 = 0 then r else r + 1) := by
  have hstep : 0 < step := by
    have hlt : f r < f (r + 1) := hf (Nat.lt_succ_self r)
    linarith
  have hden : (0 : ℚ) < den := Nat.cast_pos.mpr (Nat.zero_lt_of_lt hrest)
  have hpart : (rest / den : ℚ) < 1 := (div_lt_one hden).mpr (Nat.cast_lt.mpr hrest)
  have hpart0 : (0 : ℚ) ≤ step * (rest / den) := by positivity
  have hlow : f r ≤ q := by linarith
  have hhigh : q < f (r + 1) := by
    have := mul_lt_mul_of_pos_left hpart hstep
    linarith
  have hmid : 2 * q - (f r + f (r + 1)) = step * (((2 * rest : ℕ) - den) / den) := by
    rw [hq, hnext, Nat.cast_mul, Nat.cast_ofNat]
    field_simp
    ring
  rcases lt_trichotomy (2 * rest) den with h | h | h
  · have hneg : step * (((2 * rest : ℕ) - den : ℚ) / den) < 0 :=
      mul_neg_of_pos_of_neg hstep (div_neg_of_neg_of_pos (sub_neg.mpr (Nat.cast_lt.mpr h)) hden)
    rw [if_pos (.inl h)]
    exact isNearestEven_lower hf hlow hhigh (.inl (by linarith))
  · have hzero : step * (((2 * rest : ℕ) - den : ℚ) / den) = 0 := by
      rw [h, sub_self, zero_div, mul_zero]
    by_cases heven : r % 2 = 0
    · rw [if_pos (.inr ⟨h, heven⟩)]
      exact isNearestEven_lower hf hlow hhigh (.inr ⟨by linarith, heven⟩)
    · rw [if_neg (by omega)]
      exact isNearestEven_upper hf hlow hhigh (.inr ⟨by linarith, by omega⟩)
  · have hpos : 0 < step * (((2 * rest : ℕ) - den : ℚ) / den) :=
      mul_pos hstep (div_pos (sub_pos.mpr (Nat.cast_lt.mpr h)) hden)
    rw [if_neg (by omega)]
    exact isNearestEven_upper hf hlow hhigh (.inl (by linarith))

/-- Where the nearest place lies is decided at the midpoints, which go to the even neighbour. -/
theorem IsNearestEven.le_iff (hf : StrictMono f) (h : IsNearestEven f q r) (n : ℕ) :
    r ≤ n ↔ 2 * q < f n + f (n + 1) ∨ 2 * q = f n + f (n + 1) ∧ n % 2 = 0 := by
  have hstep : f n < f (n + 1) := hf (Nat.lt_succ_self n)
  constructor
  · intro hr
    have hle : f r ≤ f n := hf.monotone hr
    by_contra hnot
    rw [not_or, not_and, not_lt] at hnot
    obtain ⟨hmid, hodd⟩ := hnot
    have habs := (abs_sub_of_le hf hr (by linarith)).1
    have hnext := h.nearest (n + 1)
    rw [habs] at hnext
    rcases le_abs'.mp hnext with hneg | hpos
    · -- `q` is the midpoint and `r` its lower neighbour
      have htie : r = n := hf.injective (by linarith)
      subst htie
      have heven := h.even (r + 1) (by omega) (by
        rw [habs, abs_sub_comm]
        exact (abs_of_nonneg (by linarith)).trans (by linarith))
      exact hodd (by linarith) heven
    · linarith
  · intro hmid
    by_contra hnot
    have hr : n + 1 ≤ r := Nat.lt_of_not_le hnot
    have hle : f (n + 1) ≤ f r := hf.monotone hr
    have hq : q ≤ f (n + 1) := by rcases hmid with hmid | ⟨hmid, -⟩ <;> linarith
    have habs := (abs_sub_of_ge hf hr hq).1
    have hprev := h.nearest n
    rw [habs] at hprev
    rcases le_abs'.mp hprev with hneg | hpos
    · linarith
    · -- again the midpoint, and `r` its upper neighbour
      rcases hmid with hmid | ⟨hmid, heven⟩
      · linarith
      · have htie : r = n + 1 := hf.injective (by linarith)
        subst htie
        have heven' := h.even n (by omega) (by
          rw [habs]
          exact (abs_of_nonneg (by linarith)).trans (by linarith))
        omega

theorem IsNearestEven.div (h : IsNearestEven f q r) {c : ℚ} (hc : 0 < c) :
    IsNearestEven (fun n => f n / c) (q / c) r := by
  have hscale : ∀ s, |q / c - f s / c| = |q - f s| / c := by
    intro s
    rw [← sub_div, abs_div, abs_of_pos hc]
  constructor
  · intro s
    rw [hscale, hscale]
    exact div_le_div_of_nonneg_right (h.nearest s) hc.le
  · intro s hne heq
    rw [hscale, hscale, div_left_inj' hc.ne'] at heq
    exact h.even s hne heq

end NearestEven

end Wikitext
