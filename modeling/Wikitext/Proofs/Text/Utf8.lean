import Mathlib.Data.Nat.Basic
import Mathlib.Data.UInt
import Wikitext.Text.Basic

/-! The order of UTF-8. A scalar is written as a lead byte, which grows with the number of bytes
that continue it, and these bytes are its last digits in base 64. So sequences of bytes are ordered
as the sequences of scalars that they encode. -/

namespace Wikitext

theorem compare_then_of_div_mod (k m n : ℕ) :
    (compare (m / k) (n / k)).then (compare (m % k) (n % k)) = compare m n := by
  have hm := Nat.div_add_mod m k
  have hn := Nat.div_add_mod n k
  rcases lt_trichotomy (m / k) (n / k) with h | h | h
  · rw [compare_lt_iff_lt.mpr h, Ordering.lt_then, compare_lt_iff_lt.mpr (Nat.lt_of_div_lt_div h)]
  · rw [compare_eq_iff_eq.mpr h, Ordering.eq_then]
    rw [h] at hm
    rcases lt_trichotomy (m % k) (n % k) with h' | h' | h'
    · rw [compare_lt_iff_lt.mpr h', eq_comm, compare_lt_iff_lt]
      omega
    · rw [compare_eq_iff_eq.mpr h', eq_comm, compare_eq_iff_eq]
      omega
    · rw [compare_gt_iff_gt.mpr h', eq_comm, compare_gt_iff_gt]
      omega
  · rw [compare_gt_iff_gt.mpr h, Ordering.gt_then, compare_gt_iff_gt.mpr (Nat.lt_of_div_lt_div h)]

theorem compare_ofNat {m n : ℕ} (hm : m < 256) (hn : n < 256) :
    compare (UInt8.ofNat m) (UInt8.ofNat n) = compare m n := by
  rw [UInt8.compare_eq_toNat_compare_toNat, UInt8.toNat_ofNat_of_lt' hm,
    UInt8.toNat_ofNat_of_lt' hn]

theorem compare_add_right (m n a : ℕ) : compare (m + a) (n + a) = compare m n := by
  rcases lt_trichotomy m n with h | h | h
  · rw [compare_lt_iff_lt.mpr h, compare_lt_iff_lt.mpr (Nat.add_lt_add_right h a)]
  · rw [h, compare_eq_iff_eq.mpr rfl, compare_eq_iff_eq.mpr rfl]
  · rw [compare_gt_iff_gt.mpr h, compare_gt_iff_gt.mpr (Nat.add_lt_add_right h a)]

namespace Utf8

/-- The last `k` digits of a number in base 64, each in a byte that continues a scalar. -/
def continuation : ℕ → ℕ → List UInt8
  | 0, _ => []
  | k + 1, n => UInt8.ofNat (n / 64 ^ k % 64 + 0x80) :: continuation k n

theorem compare_continuation (k m n : ℕ) (s t : List UInt8) :
    compare (continuation k m ++ s) (continuation k n ++ t) =
      (compare (m % 64 ^ k) (n % 64 ^ k)).then (compare s t) := by
  induction k with
  | zero => simp [continuation, Nat.mod_one]
  | succ k ih =>
    have hdigit : ∀ i : ℕ, i / 64 ^ k % 64 + 0x80 < 256 := fun i => by
      have := Nat.mod_lt (i / 64 ^ k) (show 64 > 0 by decide)
      omega
    have hdiv : ∀ i : ℕ, i % 64 ^ (k + 1) / 64 ^ k = i / 64 ^ k % 64 := fun i => by
      rw [Nat.pow_succ, Nat.mod_mul_right_div_self]
    have hmod : ∀ i : ℕ, i % 64 ^ (k + 1) % 64 ^ k = i % 64 ^ k := fun i =>
      Nat.mod_mod_of_dvd i (Nat.pow_dvd_pow 64 (Nat.le_succ k))
    rw [continuation, continuation, List.cons_append, List.cons_append, List.compare_cons_cons, ih,
      compare_ofNat (hdigit m) (hdigit n), compare_add_right, ← Ordering.then_assoc,
      ← compare_then_of_div_mod (64 ^ k) (m % 64 ^ (k + 1)), hdiv, hdiv, hmod, hmod]

/-- How many bytes follow the lead byte of a scalar. -/
def continuations (n : ℕ) : ℕ :=
  if n ≤ 0x7F then 0 else if n ≤ 0x7FF then 1 else if n ≤ 0xFFFF then 2 else 3

def leadMark : ℕ → ℕ
  | 0 => 0
  | 1 => 0xC0
  | 2 => 0xE0
  | _ => 0xF0

def lead (n : ℕ) : ℕ :=
  n / 64 ^ continuations n + leadMark (continuations n)

theorem toNat_lt (c : Char) : c.toNat < 0x110000 := by
  have h := c.valid
  unfold UInt32.isValidChar Nat.isValidChar at h
  change c.val.toNat < 0x110000
  omega

theorem lead_lt {n : ℕ} (h : n < 0x110000) : lead n < 256 := by
  unfold lead continuations
  split_ifs <;> simp [leadMark] <;> omega

theorem lt_of_continuations_lt {m n : ℕ} (h : continuations m < continuations n) :
    m < n ∧ lead m < lead n := by
  unfold lead
  unfold continuations at h ⊢
  split_ifs at h ⊢ <;> simp [leadMark] at h ⊢ <;> omega

theorem encodeChar_eq (c : Char) :
    String.utf8EncodeChar c =
      UInt8.ofNat (lead c.toNat) :: continuation (continuations c.toNat) c.toNat := by
  have hlt := toNat_lt c
  have hval : c.val.toNat = c.toNat := rfl
  unfold String.utf8EncodeChar lead continuations
  simp only [hval]
  split_ifs with h₁ h₂ h₃
  · simp [continuation, leadMark]
  · have hmod : c.toNat / 64 % 32 = c.toNat / 64 := Nat.mod_eq_of_lt (by omega)
    simp [continuation, leadMark, hmod]
  · have hmod : c.toNat / 4096 % 16 = c.toNat / 4096 := Nat.mod_eq_of_lt (by omega)
    simp [continuation, leadMark, hmod]
  · have hmod : c.toNat / 262144 % 8 = c.toNat / 262144 := Nat.mod_eq_of_lt (by omega)
    simp [continuation, leadMark, hmod]

/-- The first bytes decide between scalars of unequal length, and all digits together between
others. -/
theorem compare_encodeChar_append (c d : Char) (s t : List UInt8) :
    compare (String.utf8EncodeChar c ++ s) (String.utf8EncodeChar d ++ t) =
      (compare c.toNat d.toNat).then (compare s t) := by
  have hlead := compare_ofNat (lead_lt (toNat_lt c)) (lead_lt (toNat_lt d))
  rw [encodeChar_eq, encodeChar_eq, List.cons_append, List.cons_append, List.compare_cons_cons,
    hlead]
  rcases lt_trichotomy (continuations c.toNat) (continuations d.toNat) with h | h | h
  · obtain ⟨hlt, hbytes⟩ := lt_of_continuations_lt h
    rw [compare_lt_iff_lt.mpr hlt, compare_lt_iff_lt.mpr hbytes, Ordering.lt_then,
      Ordering.lt_then]
  · have hquotient : compare (lead c.toNat) (lead d.toNat) =
        compare (c.toNat / 64 ^ continuations d.toNat) (d.toNat / 64 ^ continuations d.toNat) := by
      rw [lead, lead, h]
      exact compare_add_right _ _ _
    rw [h, hquotient, compare_continuation, ← Ordering.then_assoc, compare_then_of_div_mod]
  · obtain ⟨hlt, hbytes⟩ := lt_of_continuations_lt h
    rw [compare_gt_iff_gt.mpr hlt, compare_gt_iff_gt.mpr hbytes, Ordering.gt_then,
      Ordering.gt_then]

theorem encodeChar_of_ascii {c : Char} (h : c.toNat ≤ 0x7F) :
    String.utf8EncodeChar c = [UInt8.ofNat c.toNat] := by
  simp [encodeChar_eq, lead, continuations, h, leadMark, continuation]

theorem continuation_ge {k n : ℕ} {b : UInt8} (h : b ∈ continuation k n) : 0x80 ≤ b.toNat := by
  induction k with
  | zero => cases h
  | succ k ih =>
    rcases List.mem_cons.mp h with rfl | h
    · have hlt : n / 64 ^ k % 64 < 64 := Nat.mod_lt _ (by decide)
      have hbyte : n / 64 ^ k % 64 + 0x80 < 256 := by omega
      rw [UInt8.toNat_ofNat_of_lt' hbyte]
      exact Nat.le_add_left _ _
    · exact ih h

theorem encodeChar_ge {c : Char} (hc : 0x7F < c.toNat) {b : UInt8}
    (h : b ∈ String.utf8EncodeChar c) : 0x80 ≤ b.toNat := by
  rw [encodeChar_eq] at h
  rcases List.mem_cons.mp h with rfl | h
  · rw [UInt8.toNat_ofNat_of_lt' (lead_lt (toNat_lt c))]
    unfold lead continuations
    split_ifs <;> simp only [leadMark] <;> omega
  · exact continuation_ge h

end Utf8

theorem compare_utf8 (s t : Text) :
    compare (utf8 s) (utf8 t) = compare (s.map Char.toNat) (t.map Char.toNat) := by
  induction s generalizing t with
  | nil =>
    cases t with
    | nil => rfl
    | cons d t => simp [utf8, Utf8.encodeChar_eq]
  | cons c s ih =>
    cases t with
    | nil => simp [utf8, Utf8.encodeChar_eq]
    | cons d t =>
      have hrest : compare (s.flatMap String.utf8EncodeChar) (t.flatMap String.utf8EncodeChar) =
        compare (s.map Char.toNat) (t.map Char.toNat) := ih t
      rw [utf8, utf8, List.flatMap_cons, List.flatMap_cons, Utf8.compare_encodeChar_append, hrest,
        List.map_cons, List.map_cons, List.compare_cons_cons]

theorem toNat_toLower (c : Char) :
    c.toLower.toNat =
      if 0x41 ≤ c.toNat ∧ c.toNat ≤ 0x5A then c.toNat + 0x20 else c.toNat := by
  have hval : c.val.toNat = c.toNat := rfl
  have hupper : c.val ≥ 'A'.val ∧ c.val ≤ 'Z'.val ↔ 0x41 ≤ c.toNat ∧ c.toNat ≤ 0x5A := by
    rw [ge_iff_le, UInt32.le_iff_toNat_le, UInt32.le_iff_toNat_le, hval]
    rfl
  unfold Char.toLower
  by_cases h : 0x41 ≤ c.toNat ∧ c.toNat ≤ 0x5A
  · rw [dif_pos (hupper.mpr h), if_pos h]
    have hshift : ('a'.val - 'A'.val).toNat = 0x20 := rfl
    change (c.val + ('a'.val - 'A'.val)).toNat = c.toNat + 0x20
    rw [UInt32.toNat_add, hshift, hval]
    omega
  · rw [dif_neg (mt hupper.mp h), if_neg h]

end Wikitext
