import Wikitext.Proofs.Number.Reading
import Wikitext.Proofs.Sort.Collation

/-! The order of decimals after rounding. Two decimals may become the same float, but the greater one
never becomes the lesser float, so the numeric order does not invert them. -/

namespace Wikitext

section Midpoint

variable {q v w : ℚ}

theorem midpoint_le_of_nearest (h : w < v) (hnearest : |q - v| ≤ |q - w|) : w + v ≤ 2 * q := by
  have hv := neg_abs_le (q - v)
  rcases le_abs'.mp hnearest with hneg | hpos
  · linarith
  · linarith

theorem le_midpoint_of_nearest (h : w < v) (hnearest : |q - w| ≤ |q - v|) : 2 * q ≤ w + v := by
  have hw := le_abs_self (q - w)
  rcases le_abs'.mp hnearest with hneg | hpos
  · linarith
  · linarith

end Midpoint

namespace Binary64

variable {negative other : Bool} {p q : ℚ} {x y : Binary64}

/-- A rounded zero is a zero, of either sign. -/
theorem IsRounding.value_zero (h : IsRounding negative 0 x) : x.value = 0 := by
  have hnearest := h.nearest ⟨false, 0, by decide⟩
  have hzero : (Binary64.mk false 0 (by decide)).value = 0 := by
    rw [value, magnitude_zero, mul_zero]
  rw [hzero, signed, mul_zero, sub_zero, zero_sub, abs_neg, abs_zero] at hnearest
  exact abs_eq_zero.mp (le_antisymm hnearest (abs_nonneg _))

/-- Numbers with different signs are equal only if both are zero. -/
theorem IsRounding.value_eq (hp : 0 ≤ p) (hq : 0 ≤ q) (hx : IsRounding negative p x)
    (hy : IsRounding other q y) (h : signed negative p = signed other q) : x.value = y.value := by
  by_cases hsign : other = negative
  · subst hsign
    have hsub := abs_signed_sub other p q
    rw [h, sub_self, abs_zero, eq_comm, abs_eq_zero, sub_eq_zero] at hsub
    subst hsub
    rw [hx.unique hy]
  · have hsum := abs_signed_sub_of_ne hsign hp hq
    rw [h, sub_self, abs_zero] at hsum
    obtain rfl : p = 0 := by linarith
    obtain rfl : q = 0 := by linarith
    rw [hx.value_zero, hy.value_zero]

/-- If the lesser number had the greater float, it would lie above the middle of both floats and the
greater number below, so that they would be equal. -/
theorem IsRounding.value_le (hp : 0 ≤ p) (hq : 0 ≤ q) (hx : IsRounding negative p x)
    (hy : IsRounding other q y) (h : signed negative p ≤ signed other q) : x.value ≤ y.value := by
  by_contra hnot
  have hlt : y.value < x.value := lt_of_not_ge hnot
  have hlow := midpoint_le_of_nearest hlt (hx.nearest y)
  have hhigh := le_midpoint_of_nearest hlt (hy.nearest x)
  have heq : signed negative p = signed other q := by linarith
  exact hlt.ne' (hx.value_eq hp hq hy heq)

end Binary64

namespace Numeral

/-- The text is a decimal of exactly this value. -/
def Writes (t : Text) (q : ℚ) : Prop :=
  ∃ negative magnitude, IsDecimal t negative magnitude ∧ q = Binary64.signed negative magnitude

variable {t : Text} {negative : Bool} {q : ℚ}

theorem IsDecimal.nonneg (h : IsDecimal t negative q) : 0 ≤ q := by
  obtain ⟨d, -, -, rfl⟩ := isDecimal_iff.mp h
  exact d.magnitude_nonneg

theorem writes_of_decimal? {d : Decimal} (hd : decimal? t = some d)
    (hq : Binary64.signed d.negative d.magnitude = q) : Writes t q :=
  ⟨_, _, isDecimal_iff.mpr ⟨d, hd, rfl, rfl⟩, hq.symm⟩

theorem IsDecimal.writes_iff (h : IsDecimal t negative q) (r : ℚ) :
    Writes t r ↔ r = Binary64.signed negative q := by
  constructor
  · rintro ⟨other, m, hdecimal, rfl⟩
    obtain ⟨d, hd, rfl, rfl⟩ := isDecimal_iff.mp h
    obtain ⟨e, he, rfl, rfl⟩ := isDecimal_iff.mp hdecimal
    obtain rfl := Option.some.inj (hd.symm.trans he)
    rfl
  · rintro rfl
    exact ⟨negative, q, h, rfl⟩

end Numeral

theorem Number.exists_rounding_of_float {t : Text} {x : Binary64}
    (h : Number.ofText? t = some (.float x)) :
    ∃ negative q, Numeral.IsDecimal (trimSpace t) negative q ∧ Binary64.IsRounding negative q x := by
  obtain ⟨r, hr⟩ := Number.exists_reading (trimSpace t)
  rw [hr.ofText?_eq] at h
  subst h
  cases hr with
  | float _ hdecimal _ hrounding => exact ⟨_, _, hdecimal, hrounding⟩

/-- Texts read as floats write one decimal each, and the numeric order does not invert the order of
these decimals. -/
theorem compareNumeric_of_decimal_le {s t : Text} {x y : Binary64}
    (hs : Number.ofText? s = some (.float x)) (ht : Number.ofText? t = some (.float y)) :
    (∃! p, Numeral.Writes (trimSpace s) p) ∧ (∃! q, Numeral.Writes (trimSpace t) q) ∧
      ∀ p q, Numeral.Writes (trimSpace s) p → Numeral.Writes (trimSpace t) q → p ≤ q →
        compareNumeric s t ≠ .gt := by
  obtain ⟨negative, m, hm, hx⟩ := Number.exists_rounding_of_float hs
  obtain ⟨other, n, hn, hy⟩ := Number.exists_rounding_of_float ht
  refine ⟨⟨_, (hm.writes_iff _).mpr rfl, fun p => (hm.writes_iff p).mp⟩,
    ⟨_, (hn.writes_iff _).mpr rfl, fun q => (hn.writes_iff q).mp⟩, fun p q hp hq hle => ?_⟩
  rw [(hm.writes_iff p).mp hp, (hn.writes_iff q).mp hq] at hle
  have hvalue : (Number.float x).value ≤ (Number.float y).value :=
    hx.value_le hm.nonneg hn.nonneg hy hle
  rw [compareNumeric_of_numbers hs ht]
  exact compare_le_iff_le.mpr hvalue

/-- The lesser of two decimals is rounded down and the greater one is a middle that goes to the same
even float. -/
theorem compareNumeric_of_decimal_le_tie :
    let s := "9007199254740992.5".toList
    let t := "9007199254740993.".toList
    let x : Binary64 := ⟨false, 1076 * Binary64.ranksPerBinade, by decide⟩
    Number.ofText? s = some (.float x) ∧ Number.ofText? t = some (.float x) ∧
      Numeral.Writes (trimSpace s) (18014398509481985 / 2) ∧
      Numeral.Writes (trimSpace t) 9007199254740993 ∧
      (18014398509481985 / 2 : ℚ) ≤ 9007199254740993 ∧ compareNumeric s t ≠ .gt := by
  intro s t x
  have hs : Number.ofText? s = some (.float x) := by decide +kernel
  have ht : Number.ofText? t = some (.float x) := by decide +kernel
  have hp : Numeral.Writes (trimSpace s) (18014398509481985 / 2) :=
    Numeral.writes_of_decimal? (d := ⟨false, 90071992547409925, -1⟩) (by decide +kernel)
      (by norm_num [Binary64.signed, Decimal.magnitude])
  have hq : Numeral.Writes (trimSpace t) 9007199254740993 :=
    Numeral.writes_of_decimal? (d := ⟨false, 9007199254740993, 0⟩) (by decide +kernel)
      (by norm_num [Binary64.signed, Decimal.magnitude])
  have hle : (18014398509481985 / 2 : ℚ) ≤ 9007199254740993 := by norm_num
  exact ⟨hs, ht, hp, hq, hle, (compareNumeric_of_decimal_le hs ht).2.2 _ _ hp hq hle⟩

end Wikitext
