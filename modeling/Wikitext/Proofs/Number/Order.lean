import Wikitext.Proofs.Number.Grammar
import Wikitext.Proofs.Number.Value

/-! Numbers are ordered by their values. The floor of a finite float is always read back from its
digits and two finite floats always compare, so no comparison of numbers is left undecided. -/

namespace Wikitext

theorem compare_eq_compare {α β : Type*} [LinearOrder α] [LinearOrder β] {a b : α} {c d : β}
    (hlt : a < b ↔ c < d) (hgt : b < a ↔ d < c) : compare a b = compare c d := by
  rcases lt_trichotomy a b with h | h | h
  · rw [compare_lt_iff_lt.mpr h, compare_lt_iff_lt.mpr (hlt.mp h)]
  · have he : c = d := le_antisymm (not_lt.mp fun hh => (hgt.mpr hh).ne' h)
      (not_lt.mp fun hh => (hlt.mpr hh).ne h)
    rw [compare_eq_iff_eq.mpr h, compare_eq_iff_eq.mpr he]
  · rw [compare_gt_iff_gt.mpr h, compare_gt_iff_gt.mpr (hgt.mp h)]

namespace Binary64

theorem floor_nonpos {x : Binary64} (h : x.negative = true) : x.floor ≤ 0 := by
  have hu : x.units ≤ 0 := by simp [units, Numeral.withSign, h]
  exact Int.ediv_nonpos_of_nonpos_of_neg hu (Int.natCast_pos.mpr (Nat.cast_pos.mp unitsPerOne_pos))

theorem floor_nonneg {x : Binary64} (h : x.negative = false) : 0 ≤ x.floor := by
  have hu : 0 ≤ x.units := by simp [units, Numeral.withSign, h]
  exact Int.ediv_nonneg hu (Int.natCast_nonneg _)

theorem withSign_natAbs_floor (x : Binary64) :
    Numeral.withSign x.negative x.floor.natAbs = x.floor := by
  by_cases h : x.negative = true
  · have hf := floor_nonpos h
    simp only [Numeral.withSign, h, if_true]
    omega
  · have hf := floor_nonneg (Bool.eq_false_iff.mpr h)
    simp only [Numeral.withSign, h, Bool.false_eq_true, if_false]
    omega

theorem isInteger_floorText (x : Binary64) :
    Numeral.IsInteger (Datum.finite x).floorText x.floor := by
  have hdigits := Numeral.isDigits_toDigits x.floor.natAbs
  have hfloor := withSign_natAbs_floor x
  rw [← Numeral.placeValue_toDigits x.floor.natAbs] at hfloor
  by_cases h : x.negative = true
  · have htext : (Datum.finite x).floorText = ['-'] ++ Nat.toDigits 10 x.floor.natAbs := if_pos h
    rw [htext]
    nth_rewrite 2 [← hfloor]
    rw [h]
    exact .intro .minus hdigits
  · have htext : (Datum.finite x).floorText = [] ++ Nat.toDigits 10 x.floor.natAbs := if_neg h
    rw [htext]
    nth_rewrite 2 [← hfloor]
    rw [Bool.eq_false_iff.mpr h]
    exact .intro .absent hdigits

theorem integer?_floorText (x : Binary64) :
    Numeral.integer? (Datum.finite x).floorText = some x.floor :=
  Numeral.integer?_eq_some_iff.mpr (isInteger_floorText x)

theorem compare?_finite (x y : Binary64) :
    (Datum.finite x).compare? (.finite y) = some (compare x.value y.value) := by
  have h : compare x.value y.value = compare x.place y.place :=
    compare_eq_compare (value_lt_value_iff x y) (value_lt_value_iff y x)
  rw [h]
  rfl

end Binary64

theorem compare_floor_then (n : ℤ) (q : ℚ) :
    (compare n ⌊q⌋).then (if (⌊q⌋ : ℚ) = q then .eq else .lt) = compare (n : ℚ) q := by
  rcases lt_trichotomy n ⌊q⌋ with h | h | h
  · have hq : (n : ℚ) < q := lt_of_lt_of_le (Int.cast_lt.mpr h) (Int.floor_le q)
    rw [compare_lt_iff_lt.mpr h, compare_lt_iff_lt.mpr hq, Ordering.lt_then]
  · subst h
    rw [compare_eq_iff_eq.mpr rfl, Ordering.eq_then]
    split_ifs with he
    · exact (compare_eq_iff_eq.mpr he).symm
    · exact (compare_lt_iff_lt.mpr (lt_of_le_of_ne (Int.floor_le q) he)).symm
  · have hq : q < n := Int.floor_lt.mp h
    rw [compare_gt_iff_gt.mpr h, compare_gt_iff_gt.mpr hq, Ordering.gt_then]

namespace Number

def value : Number → ℚ
  | .integer n => n
  | .float x => x.value

theorem compareIntegerFloat_eq (n : ℤ) (x : Binary64) :
    compareIntegerFloat n (.finite x) = Ord.compare (n : ℚ) x.value := by
  have hfrac : (if (Binary64.Datum.finite x).exceedsFloor then Ordering.lt else .eq) =
      if (⌊x.value⌋ : ℚ) = x.value then .eq else .lt := by
    by_cases hi : x.isInteger = true
    · simp [Binary64.Datum.exceedsFloor, hi, (Binary64.isInteger_iff x).mp hi]
    · have hne := mt (Binary64.isInteger_iff x).mpr hi
      simp [Binary64.Datum.exceedsFloor, hi, hne]
  rw [compareIntegerFloat, Binary64.integer?_floorText]
  simp only [hfrac, Binary64.floor_eq, compare_floor_then]

theorem compareFloats_eq (x y : Binary64) :
    compareFloats (.finite x) (.finite y) = Ord.compare x.value y.value := by
  rw [compareFloats, Binary64.compare?_finite, Option.getD_some]

theorem compare_eq (m n : Number) : m.compare n = Ord.compare m.value n.value := by
  cases m with
  | integer m =>
    cases n with
    | integer n => exact compare_eq_compare Int.cast_lt.symm Int.cast_lt.symm
    | float y => exact compareIntegerFloat_eq m y
  | float x =>
    cases n with
    | integer n =>
      rw [compare, compareIntegerFloat_eq]
      exact Std.OrientedOrd.eq_swap.symm
    | float y => exact compareFloats_eq x y

end Number

end Wikitext
