import Wikitext.Proofs.Number.Grammar
import Wikitext.Proofs.Number.NearestEven
import Wikitext.Proofs.Number.Value

/-! Rounding to the nearest float. Ranks may go on beyond the greatest finite float; a magnitude is
rounded among all of them, and overflows where the nearest rank is no longer finite. -/

namespace Wikitext

namespace Binary64

/-- All places count units, so that they can be compared with fractions of units. -/
def unitPlace (rank : ℕ) : ℚ :=
  unitsOfRank rank

theorem unitPlace_strictMono : StrictMono unitPlace :=
  fun _ _ h => Nat.cast_lt.mpr (unitsOfRank_strictMono h)

theorem unitsOfRank_shift {shift m : ℕ} (hm : m ≤ 2 ^ 53) (hshift : shift = 0 ∨ 2 ^ 52 ≤ m) :
    unitsOfRank (shift * 2 ^ 52 + m) = m * 2 ^ shift := by
  by_cases htop : m = 2 ^ 53
  · have hbinade : (shift * 2 ^ 52 + m) / 2 ^ 52 = shift + 1 + 1 := by omega
    have hfraction : (shift * 2 ^ 52 + m) % 2 ^ 52 = 0 := by omega
    rw [unitsOfRank_of_later hbinade, hfraction, htop]
    ring
  · by_cases hsmall : m < 2 ^ 52
    · obtain rfl : shift = 0 := hshift.resolve_right (by omega)
      rw [unitsOfRank_of_first (by omega)]
      ring
    · have hbinade : (shift * 2 ^ 52 + m) / 2 ^ 52 = shift + 1 := by omega
      have hfraction : 2 ^ 52 + (shift * 2 ^ 52 + m) % 2 ^ 52 = m := by omega
      rw [unitsOfRank_of_later hbinade, hfraction]

/-- The shift leaves a quotient of at most 53 binary digits, and of exactly as many unless it is
zero. -/
theorem quotient_bounds (num den : ℕ) :
    num / (den * 2 ^ ((num / den).log2 - 52)) < 2 ^ 53 ∧
      ((num / den).log2 - 52 = 0 ∨ 2 ^ 52 ≤ num / (den * 2 ^ ((num / den).log2 - 52))) := by
  rw [← Nat.div_div_eq_div_mul]
  generalize num / den = quotient
  have hpos : ∀ k, 0 < 2 ^ k := fun k => Nat.pow_pos (by decide)
  constructor
  · rw [Nat.div_lt_iff_lt_mul (hpos _), ← Nat.pow_add]
    exact lt_of_lt_of_le Nat.lt_log2_self (Nat.pow_le_pow_right (by decide) (by omega))
  · by_cases hshift : quotient.log2 - 52 = 0
    · exact .inl hshift
    · have hne : quotient ≠ 0 := by
        rintro rfl
        exact hshift rfl
      have hexp : 52 + (quotient.log2 - 52) = quotient.log2 := by omega
      refine .inr ((Nat.le_div_iff_mul_le (hpos _)).mpr ?_)
      rw [← Nat.pow_add, hexp]
      exact Nat.log2_self_le hne

theorem unitPlace_shift {shift m : ℕ} (hm : m ≤ 2 ^ 53) (hshift : shift = 0 ∨ 2 ^ 52 ≤ m) :
    unitPlace (shift * 2 ^ 52 + m) = m * 2 ^ shift := by
  rw [unitPlace, unitsOfRank_shift hm hshift, Nat.cast_mul, Nat.cast_pow, Nat.cast_ofNat]

theorem divideToNearest_eq (num den : ℕ) : divideToNearest num den =
    if 2 * (num % den) < den ∨ 2 * (num % den) = den ∧ num / den % 2 = 0 then num / den
    else num / den + 1 :=
  rfl

theorem isNearestEven_nearestRank (num : ℕ) {den : ℕ} (hden : 0 < den) :
    IsNearestEven unitPlace (num / den) (nearestRank num den) := by
  obtain ⟨hlt, hshift⟩ := quotient_bounds num den
  have hrank : nearestRank num den = ((num / den).log2 - 52) * 2 ^ 52 +
      divideToNearest num (den * 2 ^ ((num / den).log2 - 52)) := by
    rw [nearestRank, Nat.shiftLeft_eq, ranksPerBinade_eq]
  rw [hrank]
  generalize (num / den).log2 - 52 = shift at hlt hshift ⊢
  have hdivide := Nat.div_add_mod num (den * 2 ^ shift)
  have hrest : num % (den * 2 ^ shift) < den * 2 ^ shift := Nat.mod_lt _ (by positivity)
  rw [divideToNearest_eq]
  generalize num / (den * 2 ^ shift) = m at hlt hshift hdivide ⊢
  generalize num % (den * 2 ^ shift) = rest at hdivide hrest ⊢
  have hplace : unitPlace (shift * 2 ^ 52 + m) = m * 2 ^ shift := unitPlace_shift hlt.le hshift
  -- `m + 1` may be `2 ^ 53`, the first place of the next binade, which is one step further too
  have hnext : unitPlace (shift * 2 ^ 52 + m + 1) = unitPlace (shift * 2 ^ 52 + m) + 2 ^ shift := by
    have h := unitPlace_shift (m := m + 1) hlt (hshift.imp_right Nat.le_succ_of_le)
    rw [← Nat.add_assoc] at h
    rw [h, hplace, Nat.cast_add_one]
    ring
  have hq : (num / den : ℚ) = unitPlace (shift * 2 ^ 52 + m) +
      2 ^ shift * (rest / (den * 2 ^ shift : ℕ)) := by
    have hd : (den : ℚ) ≠ 0 := Nat.cast_ne_zero.mpr hden.ne'
    rw [hplace, ← hdivide, Nat.cast_add, Nat.cast_mul, Nat.cast_mul, Nat.cast_pow, Nat.cast_ofNat]
    field_simp
  have hparity : (shift * 2 ^ 52 + m) % 2 = m % 2 := by omega
  have h := isNearestEven_of_remainder unitPlace_strictMono hrest hnext hq
  rw [hparity, add_assoc (shift * 2 ^ 52), ← add_ite] at h
  exact h

theorem isNearestEven_zero {u : ℚ} (hnonneg : 0 ≤ u) (hlt : 2 * u < 1) :
    IsNearestEven unitPlace u 0 := by
  have hzero : unitPlace 0 = 0 := Nat.cast_zero
  have hone : unitPlace (0 + 1) = 1 := Nat.cast_one
  exact isNearestEven_lower unitPlace_strictMono (by linarith) (by linarith) (.inl (by linarith))

/-- The midpoint between the greatest finite float and the power of two that would follow it. -/
theorem unitPlace_infiniteRank :
    unitPlace (infiniteRank - 1) + unitPlace infiniteRank =
      2 * ((2 ^ 1024 - 2 ^ 970) * unitsPerOne) := by
  have hlast : (infiniteRank - 1) / 2 ^ 52 = 2045 + 1 ∧
      (infiniteRank - 1) % 2 ^ 52 = 2 ^ 52 - 1 := by decide
  have hnext : infiniteRank / 2 ^ 52 = 2046 + 1 ∧ infiniteRank % 2 ^ 52 = 0 := by decide
  have hlastPower : (2 : ℚ) ^ 2045 = 2 ^ 970 * 2 ^ 1074 * 2 := by rw [← pow_add, ← pow_succ]
  have hnextPower : (2 : ℚ) ^ 2046 = 2 ^ 2045 * 2 := by rw [← pow_succ]
  have hbound : (2 : ℚ) ^ 1024 = 2 ^ 970 * 2 ^ 54 := by rw [← pow_add]
  rw [unitPlace, unitPlace, unitsOfRank_of_later hlast.1, unitsOfRank_of_later hnext.1, hlast.2,
    hnext.2, cast_unitsPerOne, Nat.cast_mul, Nat.cast_mul, Nat.cast_pow, Nat.cast_pow,
    Nat.cast_ofNat, hnextPower, hlastPower, hbound]
  generalize (2 : ℚ) ^ 970 = a
  generalize (2 : ℚ) ^ 1074 = b
  norm_num
  ring

/-- The rank of the greatest finite float is odd, so the midpoint above it goes to infinity. -/
theorem lt_infiniteRank_iff {q : ℚ} {rank : ℕ}
    (h : IsNearestEven unitPlace (q * unitsPerOne) rank) :
    rank < infiniteRank ↔ q < 2 ^ 1024 - 2 ^ 970 := by
  have hpos := unitsPerOne_pos
  have hmid := unitPlace_infiniteRank
  have hodd : (infiniteRank - 1) % 2 ≠ 0 := by decide
  have hlast : rank < infiniteRank ↔ rank ≤ infiniteRank - 1 := Nat.lt_iff_le_pred (by decide)
  have hsucc : infiniteRank - 1 + 1 = infiniteRank := Nat.sub_add_cancel (by decide)
  rw [hlast, h.le_iff unitPlace_strictMono, hsucc, hmid]
  generalize (2 ^ 1024 - 2 ^ 970 : ℚ) = bound
  constructor
  · rintro (hlt | ⟨-, heven⟩)
    · exact lt_of_mul_lt_mul_right (by linarith) hpos.le
    · exact absurd heven hodd
  · intro hlt
    have hmul := mul_lt_mul_of_pos_right hlt hpos
    exact .inl (by linarith)

end Binary64

namespace Decimal

theorem magnitude_nonneg (d : Decimal) : 0 ≤ d.magnitude :=
  mul_nonneg (Nat.cast_nonneg _) (zpow_nonneg (by norm_num) _)

theorem two_pow_le_ten_pow (k : ℕ) : 2 ^ (3 * k) ≤ 10 ^ k := by
  rw [Nat.pow_mul]
  exact Nat.pow_le_pow_left (by decide) k

theorem magnitude_of_natCast (negative : Bool) (c k : ℕ) :
    (Decimal.mk negative c (.ofNat k)).magnitude = (c * 10 ^ k : ℕ) := by
  rw [magnitude, Int.ofNat_eq_natCast, zpow_natCast, Nat.cast_mul, Nat.cast_pow, Nat.cast_ofNat]

theorem magnitude_of_negSucc (negative : Bool) (c k : ℕ) :
    (Decimal.mk negative c (.negSucc k)).magnitude = c / (10 ^ (k + 1) : ℕ) := by
  rw [magnitude, zpow_negSucc, Nat.cast_pow, Nat.cast_ofNat, div_eq_mul_inv]

theorem two_pow_le_mul_ten_pow {c m k : ℕ} (hc : c ≠ 0) (h : m ≤ c.log2 + 3 * k) :
    (2 ^ m : ℚ) ≤ (c * 10 ^ k : ℕ) := by
  have hle : 2 ^ m ≤ c * 10 ^ k := by
    calc 2 ^ m ≤ 2 ^ (c.log2 + 3 * k) := Nat.pow_le_pow_right (by decide) h
      _ = 2 ^ c.log2 * 2 ^ (3 * k) := Nat.pow_add ..
      _ ≤ c * 10 ^ k := Nat.mul_le_mul (Nat.log2_self_le hc) (two_pow_le_ten_pow k)
  exact_mod_cast hle

theorem two_mul_div_ten_pow_lt_one {c m k : ℕ} (h : c.log2 + (m + 2) ≤ 3 * k) :
    2 * ((c : ℚ) / (10 ^ k : ℕ) * 2 ^ m) < 1 := by
  have hlt : 2 * (c * 2 ^ m) < 10 ^ k := by
    calc 2 * (c * 2 ^ m) = c * 2 ^ (m + 1) := by rw [Nat.pow_succ]; ring
      _ < 2 ^ (c.log2 + 1) * 2 ^ (m + 1) :=
        Nat.mul_lt_mul_of_pos_right Nat.lt_log2_self (Nat.pow_pos (by decide))
      _ = 2 ^ (c.log2 + (m + 2)) := by ring
      _ ≤ 2 ^ (3 * k) := Nat.pow_le_pow_right (by decide) h
      _ ≤ 10 ^ k := two_pow_le_ten_pow k
  have hden : (0 : ℚ) < (10 ^ k : ℕ) := by positivity
  rw [div_mul_eq_mul_div, mul_div_assoc', div_lt_one hden]
  exact_mod_cast hlt

/-- An exponent that is noticed to be too great leads beyond the floats, and one that is noticed to
be too small leads closer to zero than to the least positive float. -/
theorem nearestRank_spec (d : Decimal) :
    IsNearestEven Binary64.unitPlace (d.magnitude * Binary64.unitsPerOne) d.nearestRank ∨
      2 ^ 1024 ≤ d.magnitude ∧ d.nearestRank = Binary64.infiniteRank := by
  obtain ⟨negative, c, exponent⟩ := d
  by_cases hc : c = 0
  · have hrank : (Decimal.mk negative c exponent).nearestRank = 0 := if_pos hc
    rw [hrank, magnitude, hc, Nat.cast_zero, zero_mul, zero_mul]
    exact .inl (Binary64.isNearestEven_zero le_rfl (by norm_num))
  · cases exponent with
    | ofNat k =>
      have hrank : (Decimal.mk negative c (.ofNat k)).nearestRank =
          if 1024 ≤ c.log2 + 3 * k then Binary64.infiniteRank
          else Binary64.nearestRank (c * 10 ^ k * Binary64.unitsPerOne) 1 := if_neg hc
      rw [magnitude_of_natCast, hrank]
      by_cases hgreat : 1024 ≤ c.log2 + 3 * k
      · rw [if_pos hgreat]
        exact .inr ⟨two_pow_le_mul_ten_pow hc hgreat, rfl⟩
      · rw [if_neg hgreat]
        have h := Binary64.isNearestEven_nearestRank (c * 10 ^ k * Binary64.unitsPerOne) Nat.one_pos
        rw [Nat.cast_one, div_one, Nat.cast_mul] at h
        exact .inl h
    | negSucc k =>
      have hrank : (Decimal.mk negative c (.negSucc k)).nearestRank =
          if c.log2 + 1076 ≤ 3 * (k + 1) then 0
          else Binary64.nearestRank (c * Binary64.unitsPerOne) (10 ^ (k + 1)) := if_neg hc
      rw [magnitude_of_negSucc, hrank]
      have hden : 0 < 10 ^ (k + 1) := Nat.pow_pos (by decide)
      by_cases hsmall : c.log2 + 1076 ≤ 3 * (k + 1)
      · rw [if_pos hsmall]
        have hnonneg : (0 : ℚ) ≤ c / (10 ^ (k + 1) : ℕ) * Binary64.unitsPerOne :=
          mul_nonneg (by positivity) Binary64.unitsPerOne_pos.le
        refine .inl (Binary64.isNearestEven_zero hnonneg ?_)
        rw [Binary64.cast_unitsPerOne]
        exact two_mul_div_ten_pow_lt_one hsmall
      · rw [if_neg hsmall]
        have h := Binary64.isNearestEven_nearestRank (c * Binary64.unitsPerOne) hden
        rw [Nat.cast_mul, mul_div_right_comm] at h
        exact .inl h

theorem nearestRank_lt_iff (d : Decimal) :
    d.nearestRank < Binary64.infiniteRank ↔ d.magnitude < 2 ^ 1024 - 2 ^ 970 := by
  rcases d.nearestRank_spec with h | ⟨hgreat, hrank⟩
  · exact Binary64.lt_infiniteRank_iff h
  · have hbound : (2 ^ 1024 - 2 ^ 970 : ℚ) ≤ 2 ^ 1024 := sub_le_self _ (by positivity)
    rw [hrank]
    exact iff_of_false (lt_irrefl _) (not_lt.mpr (hbound.trans hgreat))

theorem isNearestEven_magnitude {d : Decimal} (h : d.nearestRank < Binary64.infiniteRank) :
    IsNearestEven Binary64.magnitude d.magnitude d.nearestRank := by
  have hunits : IsNearestEven Binary64.unitPlace (d.magnitude * Binary64.unitsPerOne)
      d.nearestRank :=
    d.nearestRank_spec.resolve_right fun hgreat => h.ne hgreat.2
  have hplace : Binary64.magnitude = fun n => Binary64.unitPlace n / Binary64.unitsPerOne :=
    funext Binary64.magnitude_eq_units_div
  have hdiv := hunits.div Binary64.unitsPerOne_pos
  rw [mul_div_cancel_right₀ _ Binary64.unitsPerOne_pos.ne', ← hplace] at hdiv
  exact hdiv

end Decimal

end Wikitext
