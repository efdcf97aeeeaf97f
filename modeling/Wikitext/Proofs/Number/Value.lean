import Mathlib.Data.Rat.Floor
import Mathlib.Tactic.Ring
import Wikitext.Number.Basic

/-! The rational number that a float stands for. Values rise with the ranks, and the floor of a float
is the floor of its value. -/

namespace Wikitext

namespace Binary64

theorem ranksPerBinade_eq : ranksPerBinade = 2 ^ 52 :=
  rfl

theorem unitsOfRank_of_first {rank : ℕ} (h : rank / 2 ^ 52 = 0) : unitsOfRank rank = rank :=
  if_pos h

theorem unitsOfRank_of_later {rank e : ℕ} (h : rank / 2 ^ 52 = e + 1) :
    unitsOfRank rank = (2 ^ 52 + rank % 2 ^ 52) * 2 ^ e := by
  rw [unitsOfRank, ranksPerBinade_eq, h, if_neg (Nat.succ_ne_zero e), Nat.add_sub_cancel,
    Nat.shiftLeft_eq]

/-- Within a binade a rank adds one to the fraction, and the last rank of a binade is followed by
the first of the next, where the unit of the fraction has doubled. -/
theorem unitsOfRank_lt_succ (rank : ℕ) : unitsOfRank rank < unitsOfRank (rank + 1) := by
  by_cases hz : rank / 2 ^ 52 = 0
  · rw [unitsOfRank_of_first hz]
    by_cases hin : (rank + 1) / 2 ^ 52 = 0
    · rw [unitsOfRank_of_first hin]
      omega
    · have hnext : (rank + 1) / 2 ^ 52 = 0 + 1 := by omega
      rw [unitsOfRank_of_later hnext]
      omega
  · obtain ⟨e, he⟩ : ∃ e, rank / 2 ^ 52 = e + 1 := ⟨rank / 2 ^ 52 - 1, by omega⟩
    rw [unitsOfRank_of_later he]
    by_cases hin : (rank + 1) / 2 ^ 52 = e + 1
    · have hmod : (rank + 1) % 2 ^ 52 = rank % 2 ^ 52 + 1 := by omega
      rw [unitsOfRank_of_later hin, hmod]
      exact Nat.mul_lt_mul_of_pos_right (by omega) (by positivity)
    · have hnext : (rank + 1) / 2 ^ 52 = (e + 1) + 1 := by omega
      have hmod : (rank + 1) % 2 ^ 52 = 0 := by omega
      have hlt : rank % 2 ^ 52 < 2 ^ 52 := Nat.mod_lt _ (by positivity)
      rw [unitsOfRank_of_later hnext, hmod]
      calc (2 ^ 52 + rank % 2 ^ 52) * 2 ^ e < (2 ^ 52 * 2) * 2 ^ e :=
            Nat.mul_lt_mul_of_pos_right (by omega) (by positivity)
        _ = (2 ^ 52 + 0) * 2 ^ (e + 1) := by ring

theorem unitsOfRank_strictMono : StrictMono unitsOfRank :=
  strictMono_nat_of_lt_succ unitsOfRank_lt_succ

theorem withSign_lt_iff {f : ℕ → ℕ} (hf : StrictMono f) (hzero : f 0 = 0) (a b : Bool) (m n : ℕ) :
    Numeral.withSign a (f m) < Numeral.withSign b (f n) ↔
      Numeral.withSign a m < Numeral.withSign b n := by
  have hm : f m = 0 ↔ m = 0 := hf.injective.eq_iff' hzero
  have hn : f n = 0 ↔ n = 0 := hf.injective.eq_iff' hzero
  have hmn : f m < f n ↔ m < n := hf.lt_iff_lt
  have hnm : f n < f m ↔ n < m := hf.lt_iff_lt
  cases a <;> cases b <;> simp only [Numeral.withSign, if_true, Bool.false_eq_true, if_false] <;>
    omega

theorem units_lt_units_iff (x y : Binary64) : x.units < y.units ↔ x.place < y.place :=
  withSign_lt_iff unitsOfRank_strictMono rfl _ _ _ _

/-- The value of a rank by its fields: a fraction below one at the least exponent, and a fraction
with a leading one at every other. -/
def magnitude (rank : ℕ) : ℚ :=
  if rank / 2 ^ 52 = 0 then ((rank % 2 ^ 52 : ℕ) : ℚ) * 2 ^ (-1074 : ℤ)
  else ((2 ^ 52 + rank % 2 ^ 52 : ℕ) : ℚ) * 2 ^ ((rank / 2 ^ 52 : ℕ) - 1075 : ℤ)

def value (x : Binary64) : ℚ :=
  (if x.negative then -1 else 1) * magnitude x.rank

-- The exponent is generalized so that the power is never formed.
theorem cast_unitsPerOne : (unitsPerOne : ℚ) = 2 ^ (1074 : ℕ) := by
  unfold unitsPerOne
  generalize 1074 = exponent
  rw [Nat.one_shiftLeft, Nat.cast_pow, Nat.cast_ofNat]

theorem unitsPerOne_pos : (0 : ℚ) < unitsPerOne := by
  rw [cast_unitsPerOne]
  positivity

theorem magnitude_eq_units_div (rank : ℕ) :
    magnitude rank = (unitsOfRank rank : ℚ) / unitsPerOne := by
  rw [magnitude, cast_unitsPerOne]
  split_ifs with hz
  · have hmod : rank % 2 ^ 52 = rank := by omega
    have hexp : (-1074 : ℤ) = -(1074 : ℕ) := rfl
    rw [unitsOfRank_of_first hz, hmod, hexp, zpow_neg, zpow_natCast, div_eq_mul_inv]
  · obtain ⟨e, he⟩ : ∃ e, rank / 2 ^ 52 = e + 1 := ⟨rank / 2 ^ 52 - 1, by omega⟩
    have hexp : ((e + 1 : ℕ) - 1075 : ℤ) = (e : ℤ) - (1074 : ℕ) := by omega
    rw [unitsOfRank_of_later he, he, hexp, zpow_sub₀ two_ne_zero, zpow_natCast, zpow_natCast,
      Nat.cast_mul, Nat.cast_pow, Nat.cast_ofNat, mul_div_assoc]

theorem value_eq_units_div (x : Binary64) : x.value = (x.units : ℚ) / unitsPerOne := by
  rw [value, magnitude_eq_units_div, units, Numeral.withSign]
  by_cases h : x.negative = true
  · simp only [h, if_true, Int.cast_neg, Int.cast_natCast, neg_one_mul, neg_div]
  · simp only [h, Bool.false_eq_true, if_false, Int.cast_natCast, one_mul]

theorem value_lt_value_iff (x y : Binary64) : x.value < y.value ↔ x.place < y.place := by
  rw [value_eq_units_div, value_eq_units_div, div_lt_div_iff_of_pos_right unitsPerOne_pos,
    Int.cast_lt, units_lt_units_iff]

theorem floor_eq (x : Binary64) : x.floor = ⌊x.value⌋ := by
  rw [value_eq_units_div, Rat.floor_intCast_div_natCast, floor]

theorem isInteger_iff (x : Binary64) : x.isInteger = true ↔ (⌊x.value⌋ : ℚ) = x.value := by
  have hmul : (⌊x.value⌋ : ℚ) = x.value ↔ x.floor * unitsPerOne = x.units := by
    rw [← floor_eq, value_eq_units_div, eq_div_iff unitsPerOne_pos.ne']
    exact_mod_cast Iff.rfl
  have h := Int.ediv_mul_add_emod x.units unitsPerOne
  rw [hmul, floor, isInteger, decide_eq_true_iff]
  constructor
  · intro hz
    simpa only [hz, add_zero] using h
  · intro he
    simpa only [he, add_eq_left] using h

end Binary64

end Wikitext
