import Wikitext.Proofs.Number.Rounding

/-! What a text is read as. A decimal becomes the float nearest to it, if that is finite. -/

namespace Wikitext

namespace Binary64

def signed (negative : Bool) (q : ℚ) : ℚ :=
  (if negative then -1 else 1) * q

/-- No float is nearer to the number of this sign and magnitude than `x`, and the fraction of `x` is
even if another one is as near. Zeros keep the sign. -/
structure IsRounding (negative : Bool) (q : ℚ) (x : Binary64) : Prop where
  sign : x.negative = negative
  nearest : ∀ y : Binary64, |signed negative q - x.value| ≤ |signed negative q - y.value|
  even : ∀ y : Binary64, y.value ≠ x.value →
    |signed negative q - y.value| = |signed negative q - x.value| → x.rank % 2 = 0

section Signed

variable {negative other : Bool} {q m : ℚ}

theorem abs_signed (negative : Bool) (q : ℚ) : |signed negative q| = |q| := by
  cases negative <;> simp [signed]

theorem abs_signed_sub (negative : Bool) (q m : ℚ) :
    |signed negative q - signed negative m| = |q - m| := by
  have hsub : signed negative q - signed negative m = signed negative (q - m) := (mul_sub ..).symm
  rw [hsub, abs_signed]

theorem abs_signed_sub_of_ne (h : other ≠ negative) (hq : 0 ≤ q) (hm : 0 ≤ m) :
    |signed negative q - signed other m| = q + m := by
  have hsum : signed negative q - signed other m = signed negative (q + m) := by
    cases negative with
    | false =>
      obtain rfl : other = true := by simpa using h
      simp [signed]
    | true =>
      obtain rfl : other = false := by simpa using h
      simp only [signed, if_true, Bool.false_eq_true, if_false]
      ring
  rw [hsum, abs_signed, abs_of_nonneg (add_nonneg hq hm)]

end Signed

theorem magnitude_strictMono : StrictMono magnitude := by
  intro r s h
  rw [magnitude_eq_units_div, magnitude_eq_units_div]
  exact div_lt_div_of_pos_right (unitPlace_strictMono h) unitsPerOne_pos

theorem magnitude_zero : magnitude 0 = 0 := by
  rw [magnitude_eq_units_div]
  exact zero_div _

theorem magnitude_nonneg (rank : ℕ) : 0 ≤ magnitude rank := by
  rw [← magnitude_zero]
  exact magnitude_strictMono.monotone (Nat.zero_le rank)

theorem abs_value (x : Binary64) : |x.value| = magnitude x.rank :=
  (abs_signed ..).trans (abs_of_nonneg (magnitude_nonneg _))

theorem isRounding_of_isNearestEven {x : Binary64} {q : ℚ} (hq : 0 ≤ q)
    (h : IsNearestEven magnitude q x.rank) : IsRounding x.negative q x := by
  have hx : |signed x.negative q - x.value| = |q - magnitude x.rank| := abs_signed_sub ..
  have hzero := h.nearest 0
  rw [magnitude_zero, sub_zero, abs_of_nonneg hq] at hzero
  refine ⟨rfl, fun y => ?_, fun y hne heq => ?_⟩
  · rw [hx]
    by_cases hsign : y.negative = x.negative
    · rw [value, hsign]
      exact (h.nearest y.rank).trans_eq (abs_signed_sub ..).symm
    · have hy : |signed x.negative q - y.value| = q + magnitude y.rank :=
        abs_signed_sub_of_ne hsign hq (magnitude_nonneg _)
      have hnonneg := magnitude_nonneg y.rank
      rw [hy]
      linarith
  · rw [hx] at heq
    by_cases hsign : y.negative = x.negative
    · have hrank : y.rank ≠ x.rank := fun he => hne (by rw [value, value, hsign, he])
      rw [value, hsign] at heq
      exact h.even y.rank hrank ((abs_signed_sub ..).symm.trans heq)
    · -- a float of the other sign is as near only if it is zero, and then the other zero is too
      have hy : |signed x.negative q - y.value| = q + magnitude y.rank :=
        abs_signed_sub_of_ne hsign hq (magnitude_nonneg _)
      have hnonneg := magnitude_nonneg y.rank
      rw [hy] at heq
      have hyzero : magnitude y.rank = 0 := by linarith
      have hrank : 0 ≠ x.rank := by
        intro he
        rw [value, value, hyzero, ← he, magnitude_zero, mul_zero, mul_zero] at hne
        exact hne rfl
      refine h.even 0 hrank ?_
      rw [magnitude_zero, sub_zero, abs_of_nonneg hq, ← heq, hyzero, add_zero]

theorem IsRounding.abs_sub {negative : Bool} {q : ℚ} {x y : Binary64} (h : IsRounding negative q x)
    (hy : y.negative = negative) :
    |q - magnitude x.rank| ≤ |q - magnitude y.rank| := by
  have hnearest := h.nearest y
  rw [value, value, h.sign, hy] at hnearest
  exact (abs_signed_sub ..).symm.trans_le (hnearest.trans_eq (abs_signed_sub ..))

/-- Of two floats as near as possible both would be even, and a nearer one would stand between. -/
theorem IsRounding.rank_le {negative : Bool} {q : ℚ} {x y : Binary64}
    (hx : IsRounding negative q x) (hy : IsRounding negative q y) : x.rank ≤ y.rank := by
  by_contra hnot
  have hrank : y.rank < x.rank := Nat.lt_of_not_le hnot
  have hlt : magnitude y.rank < magnitude x.rank := magnitude_strictMono hrank
  have hdist : |q - magnitude x.rank| = |q - magnitude y.rank| :=
    le_antisymm (hx.abs_sub hy.sign) (hy.abs_sub hx.sign)
  have hmid : q - magnitude x.rank = -(q - magnitude y.rank) := by
    rcases abs_eq_abs.mp hdist with h | h
    · linarith
    · exact h
  have hvalue : y.value ≠ x.value := by
    intro he
    rw [← abs_value, ← abs_value, he] at hlt
    exact lt_irrefl _ hlt
  have hsame := le_antisymm (hy.nearest x) (hx.nearest y)
  have hxeven : x.rank % 2 = 0 := hx.even y hvalue hsame
  have hyeven : y.rank % 2 = 0 := hy.even x hvalue.symm hsame.symm
  have hbetween : y.rank + 1 < x.rank := by omega
  have hlow : magnitude y.rank < magnitude (y.rank + 1) := magnitude_strictMono (Nat.lt_succ_self _)
  have hhigh : magnitude (y.rank + 1) < magnitude x.rank := magnitude_strictMono hbetween
  have hnearer : |q - magnitude (y.rank + 1)| < magnitude x.rank - q :=
    abs_lt.mpr ⟨by linarith, by linarith⟩
  have hle : |q - magnitude x.rank| ≤ |q - magnitude (y.rank + 1)| :=
    hx.abs_sub (y := ⟨negative, y.rank + 1, hbetween.trans x.rank_lt⟩) rfl
  have habs : magnitude x.rank - q ≤ |q - magnitude x.rank| := by
    rw [abs_sub_comm]
    exact le_abs_self _
  linarith

theorem IsRounding.unique {negative : Bool} {q : ℚ} {x y : Binary64} (hx : IsRounding negative q x)
    (hy : IsRounding negative q y) : x = y := by
  have hrank := le_antisymm (hx.rank_le hy) (hy.rank_le hx)
  have hsign := hx.sign.trans hy.sign.symm
  cases x
  cases y
  simp only [mk.injEq]
  exact ⟨hsign, hrank⟩

end Binary64

namespace Binary64.Datum

theorem finite?_ofWord? (t : Text) : (ofWord? t).bind finite? = none := by
  simp only [ofWord?]
  split_ifs <;> rfl

theorem finite?_ofDecimal_of_lt {d : Decimal} (h : d.magnitude < 2 ^ 1024 - 2 ^ 970) :
    ∃ x, (ofDecimal d).finite? = some x ∧ IsRounding d.negative d.magnitude x := by
  have hrank := d.nearestRank_lt_iff.mpr h
  have hnearest := Decimal.isNearestEven_magnitude hrank
  refine ⟨⟨d.negative, d.nearestRank, hrank⟩, ?_, ?_⟩
  · rw [ofDecimal, dif_pos hrank, finite?]
  · exact isRounding_of_isNearestEven (x := ⟨_, _, hrank⟩) d.magnitude_nonneg hnearest

theorem finite?_ofDecimal_of_ge {d : Decimal} (h : 2 ^ 1024 - 2 ^ 970 ≤ d.magnitude) :
    (ofDecimal d).finite? = none := by
  rw [ofDecimal, dif_neg (mt d.nearestRank_lt_iff.mp (not_lt.mpr h)), finite?]

end Binary64.Datum

namespace Number

open Numeral

/-- What a text without white space at its ends is read as. -/
inductive Reading (t : Text) : Option Number → Prop where
  | integer {n : ℤ} (hinteger : IsInteger t n) : Reading t (some (.integer n))
  | float {negative : Bool} {q : ℚ} {x : Binary64} (hother : ∀ n, ¬ IsInteger t n)
    (hdecimal : IsDecimal t negative q) (hbound : q < 2 ^ 1024 - 2 ^ 970)
    (hrounding : Binary64.IsRounding negative q x) : Reading t (some (.float x))
  | overflow {negative : Bool} {q : ℚ} (hother : ∀ n, ¬ IsInteger t n)
    (hdecimal : IsDecimal t negative q) (hbound : 2 ^ 1024 - 2 ^ 970 ≤ q) : Reading t none
  | other (hinteger : ∀ n, ¬ IsInteger t n) (hdecimal : ∀ negative q, ¬ IsDecimal t negative q) :
    Reading t none

variable {t : Text}

theorem ofText?_of_integer {n : ℤ} (h : integer? (trimSpace t) = some n) :
    ofText? t = some (.integer n) := by
  rw [ofText?, h, Option.map_some, Option.some_or]

theorem ofText?_of_decimal {d : Decimal} (hinteger : integer? (trimSpace t) = none)
    (hdecimal : decimal? (trimSpace t) = some d) :
    ofText? t = (Binary64.Datum.ofDecimal d).finite?.map .float := by
  rw [ofText?, hinteger, Binary64.Datum.ofText?, hdecimal]
  rfl

theorem ofText?_of_none (hinteger : integer? (trimSpace t) = none)
    (hdecimal : decimal? (trimSpace t) = none) : ofText? t = none := by
  rw [ofText?, hinteger, Binary64.Datum.ofText?, hdecimal]
  simp only [Option.map_none, Option.none_or, Binary64.Datum.finite?_ofWord?]

theorem Reading.ofText?_eq {r : Option Number} (h : Reading (trimSpace t) r) : ofText? t = r := by
  cases h with
  | integer hinteger => exact ofText?_of_integer (integer?_eq_some_iff.mpr hinteger)
  | float hother hdecimal hbound hrounding =>
    obtain ⟨d, hd, rfl, rfl⟩ := isDecimal_iff.mp hdecimal
    obtain ⟨x, hfinite, hx⟩ := Binary64.Datum.finite?_ofDecimal_of_lt hbound
    rw [ofText?_of_decimal (integer?_eq_none_iff.mpr hother) hd, hfinite, hx.unique hrounding]
    rfl
  | overflow hother hdecimal hbound =>
    obtain ⟨d, hd, rfl, rfl⟩ := isDecimal_iff.mp hdecimal
    rw [ofText?_of_decimal (integer?_eq_none_iff.mpr hother) hd,
      Binary64.Datum.finite?_ofDecimal_of_ge hbound]
    rfl
  | other hinteger hdecimal =>
    exact ofText?_of_none (integer?_eq_none_iff.mpr hinteger) (decimal?_eq_none_iff.mpr hdecimal)

theorem exists_reading (t : Text) : ∃ r, Reading t r := by
  by_cases hinteger : ∃ n, IsInteger t n
  · obtain ⟨n, hn⟩ := hinteger
    exact ⟨_, .integer hn⟩
  · rw [not_exists] at hinteger
    by_cases hdecimal : ∃ negative q, IsDecimal t negative q
    · obtain ⟨negative, q, hq⟩ := hdecimal
      rcases lt_or_ge q (2 ^ 1024 - 2 ^ 970) with hbound | hbound
      · obtain ⟨d, -, rfl, rfl⟩ := isDecimal_iff.mp hq
        obtain ⟨x, -, hx⟩ := Binary64.Datum.finite?_ofDecimal_of_lt hbound
        exact ⟨_, .float hinteger hq hbound hx⟩
      · exact ⟨_, .overflow hinteger hq hbound⟩
    · simp only [not_exists] at hdecimal
      exact ⟨_, .other hinteger hdecimal⟩

/-- The reader gives the one reading that the grammar of numerals and the nearest float allow. A
text without digits, such as a word, a lone sign or a lone point, and one with two signs give
none. -/
theorem ofText?_eq_iff_reading (t : Text) :
    (∀ s, IsTrim isSpace t s ↔ s = trimSpace t) ∧
      (∀ r, ofText? t = r ↔ Reading (trimSpace t) r) ∧
      ((trimSpace t).any Char.isDigit = false → ofText? t = none) ∧
      ∀ a b rest, trimSpace t = a :: b :: rest → (a = '+' ∨ a = '-') → (b = '+' ∨ b = '-') →
        ofText? t = none := by
  have hnone (hother : ∀ negative q, ¬ IsDecimal (trimSpace t) negative q) : ofText? t = none := by
    refine (Reading.other (fun n hn => ?_) hother).ofText?_eq
    obtain ⟨negative, q, hq⟩ := hn.isDecimal
    exact hother negative q hq
  refine ⟨fun s => isTrim_iff, fun r => ⟨?_, Reading.ofText?_eq⟩, fun hdigits =>
    hnone fun negative q hq => ?_, fun a b rest htext ha hb => hnone fun negative q hq => ?_⟩
  · rintro rfl
    obtain ⟨r, hr⟩ := exists_reading (trimSpace t)
    rw [hr.ofText?_eq]
    exact hr
  · obtain ⟨c, hc, hdigit⟩ := hq.exists_digit
    exact List.any_eq_false.mp hdigits c hc hdigit
  · rw [htext] at hq
    exact hq.not_two_signs ⟨ha, hb⟩

/-- With a point `2 ^ 53 + 1` is no integer. It lies between two floats and goes to the even one. -/
theorem ofText?_eq_iff_reading_tie :
    Reading ['9', '0', '0', '7', '1', '9', '9', '2', '5', '4', '7', '4', '0', '9', '9', '3', '.']
        (some (.float ⟨false, 1076 * Binary64.ranksPerBinade, by decide⟩)) ∧
      ofText? ['\t', '-', 'I', 'n', 'F'] = none ∧ ofText? ['+', '-', '1', '\u00a0'] = none := by
  obtain ⟨htrim, hreading, -, -⟩ := ofText?_eq_iff_reading ['\u00a0', '9', '0', '0', '7', '1', '9',
    '9', '2', '5', '4', '7', '4', '0', '9', '9', '3', '.', '\n']
  obtain ⟨-, -, hword, -⟩ := ofText?_eq_iff_reading ['\t', '-', 'I', 'n', 'F']
  obtain ⟨-, -, -, hsigns⟩ := ofText?_eq_iff_reading ['+', '-', '1', '\u00a0']
  refine ⟨?_, hword (by decide), hsigns '+' '-' ['1'] (by decide) (.inl rfl) (.inr rfl)⟩
  have hcore := (htrim ['9', '0', '0', '7', '1', '9', '9', '2', '5', '4', '7', '4', '0', '9', '9',
    '3', '.']).mp ⟨by decide, ['\u00a0'], ['\n'], rfl, by simp [isSpace], by simp [isSpace]⟩
  rw [hcore]
  exact (hreading _).mp (by decide +kernel)

end Number

end Wikitext
