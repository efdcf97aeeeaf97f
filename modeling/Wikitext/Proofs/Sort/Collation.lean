import Wikitext.Proofs.Number.Order
import Wikitext.Proofs.Text.Utf8
import Wikitext.Sort.Collation

/-! The orders of texts. Bytes order texts by their scalars, with or without the case of ASCII
letters. The numeric order follows the values of numbers and sets them before all
other texts, so the places of texts are rational numbers first and byte sequences after them. -/

namespace Wikitext

theorem utf8_injective : Function.Injective utf8 := by
  intro s t h
  have he : s.utf8Encode = t.utf8Encode := congrArg List.toByteArray h
  simpa using congrArg ByteArray.utf8Decode? he

instance : Std.TransCmp compareBytes :=
  inferInstanceAs (Std.TransCmp (compareOn utf8))

instance : Std.TransCmp compareIgnoringCase :=
  inferInstanceAs (Std.TransCmp (compareOn fun t => (utf8 t).map lowerByte))

theorem compareBytes_eq_iff {s t : Text} : compareBytes s t = .eq ↔ s = t := by
  rw [compareBytes, Std.LawfulEqOrd.compare_eq_iff_eq, utf8_injective.eq_iff]

section Scalars

theorem toNat_lowerByte (b : UInt8) : (lowerByte b).toNat =
    if 0x41 ≤ b.toNat ∧ b.toNat ≤ 0x5A then b.toNat + 0x20 else b.toNat := by
  have hupper : 0x41 ≤ b ∧ b ≤ 0x5A ↔ 0x41 ≤ b.toNat ∧ b.toNat ≤ 0x5A := by
    rw [UInt8.le_iff_toNat_le, UInt8.le_iff_toNat_le]
    rfl
  unfold lowerByte
  by_cases h : 0x41 ≤ b.toNat ∧ b.toNat ≤ 0x5A
  · have hshift : (0x20 : UInt8).toNat = 0x20 := rfl
    rw [if_pos (hupper.mpr h), if_pos h, UInt8.toNat_add, hshift]
    omega
  · rw [if_neg (mt hupper.mp h), if_neg h]

/-- Bytes of longer encodings lie outside ASCII, so only a scalar that is a byte of its own changes. -/
theorem map_lowerByte_encodeChar (c : Char) :
    (String.utf8EncodeChar c).map lowerByte = String.utf8EncodeChar c.toLower := by
  by_cases h : c.toNat ≤ 0x7F
  · have hlower : c.toLower.toNat ≤ 0x7F := by
      rw [toNat_toLower]
      split_ifs <;> omega
    have hbyte : (UInt8.ofNat c.toNat).toNat = c.toNat :=
      UInt8.toNat_ofNat_of_lt' (Nat.lt_of_le_of_lt h (by decide))
    have hbyte' : (UInt8.ofNat c.toLower.toNat).toNat = c.toLower.toNat :=
      UInt8.toNat_ofNat_of_lt' (Nat.lt_of_le_of_lt hlower (by decide))
    rw [Utf8.encodeChar_of_ascii h, Utf8.encodeChar_of_ascii hlower, List.map_singleton]
    congr 1
    rw [← UInt8.toNat_inj, toNat_lowerByte, hbyte, hbyte', toNat_toLower]
  · have hkeep : c.toLower = c := by
      rw [← Char.toNat_inj, toNat_toLower, if_neg (by omega)]
    have hbytes : ∀ b ∈ String.utf8EncodeChar c, lowerByte b = b := by
      intro b hb
      have hge := Utf8.encodeChar_ge (Nat.lt_of_not_le h) hb
      rw [← UInt8.toNat_inj, toNat_lowerByte, if_neg (by omega)]
    rw [hkeep, List.map_congr_left hbytes, List.map_id']

theorem utf8_lowerAscii (t : Text) : utf8 (lowerAscii t) = (utf8 t).map lowerByte := by
  rw [utf8, utf8, lowerAscii, List.flatMap_map, List.map_flatMap]
  exact List.flatMap_congr fun c _ => (map_lowerByte_encodeChar c).symm

theorem compareIgnoringCase_eq (s t : Text) :
    compareIgnoringCase s t = compareBytes (lowerAscii s) (lowerAscii t) := by
  rw [compareIgnoringCase, compareBytes, utf8_lowerAscii, utf8_lowerAscii]

/-- Both orders of bytes are the lexicographic order of scalars, the second after `A` to `Z` have
become `a` to `z`. -/
theorem compareBytes_compareIgnoringCase_by_scalars (s t : Text) :
    compareBytes s t = compare (s.map Char.toNat) (t.map Char.toNat) ∧
    compareIgnoringCase s t =
      compare ((lowerAscii s).map Char.toNat) ((lowerAscii t).map Char.toNat) ∧
    (lowerAscii s).map Char.toNat = (s.map Char.toNat).map
      (fun n => if 0x41 ≤ n ∧ n ≤ 0x5A then n + 0x20 else n) ∧
    (compareBytes s t = .eq ↔ s = t) ∧
    (compareIgnoringCase s t = .eq ↔ lowerAscii s = lowerAscii t) := by
  refine ⟨compare_utf8 s t, ?_, ?_, compareBytes_eq_iff, ?_⟩
  · rw [compareIgnoringCase_eq]
    exact compare_utf8 _ _
  · rw [lowerAscii, List.map_map, List.map_map]
    exact List.map_congr_left fun c _ => toNat_toLower c
  · rw [compareIgnoringCase_eq, compareBytes_eq_iff]

end Scalars

section Numeric

variable {s t : Text} {m n : Number}

theorem compareNumeric_of_numbers (hs : Number.ofText? s = some m)
    (ht : Number.ofText? t = some n) : compareNumeric s t = compare m.value n.value := by
  simp only [compareNumeric, hs, ht, Number.compare_eq]

theorem compareNumeric_of_number_left (hs : Number.ofText? s = some m)
    (ht : Number.ofText? t = none) : compareNumeric s t = .lt := by
  simp only [compareNumeric, hs, ht]

theorem compareNumeric_of_number_right (hs : Number.ofText? s = none)
    (ht : Number.ofText? t = some n) : compareNumeric s t = .gt := by
  simp only [compareNumeric, hs, ht]

theorem compareNumeric_of_others (hs : Number.ofText? s = none) (ht : Number.ofText? t = none) :
    compareNumeric s t = compareBytes s t := by
  simp only [compareNumeric, hs, ht]

theorem compareNumeric_eq_iff : compareNumeric s t = .eq ↔
    (∃ m n, Number.ofText? s = some m ∧ Number.ofText? t = some n ∧ m.value = n.value) ∨
      (Number.ofText? s = none ∧ s = t) := by
  cases hs : Number.ofText? s with
  | some m =>
    cases ht : Number.ofText? t with
    | some n =>
      rw [compareNumeric_of_numbers hs ht, compare_eq_iff_eq]
      simp
    | none =>
      rw [compareNumeric_of_number_left hs ht]
      simp
  | none =>
    cases ht : Number.ofText? t with
    | some n =>
      have hne : s ≠ t := by
        rintro rfl
        simp [hs] at ht
      rw [compareNumeric_of_number_right hs ht]
      simp [hne]
    | none =>
      rw [compareNumeric_of_others hs ht, compareBytes_eq_iff]
      simp

theorem compareNumeric_swap (s t : Text) : compareNumeric s t = (compareNumeric t s).swap := by
  cases hs : Number.ofText? s with
  | some m =>
    cases ht : Number.ofText? t with
    | some n =>
      rw [compareNumeric_of_numbers hs ht, compareNumeric_of_numbers ht hs]
      exact Std.OrientedOrd.eq_swap
    | none =>
      rw [compareNumeric_of_number_left hs ht, compareNumeric_of_number_right ht hs]
      rfl
  | none =>
    cases ht : Number.ofText? t with
    | some n =>
      rw [compareNumeric_of_number_right hs ht, compareNumeric_of_number_left ht hs]
      rfl
    | none =>
      rw [compareNumeric_of_others hs ht, compareNumeric_of_others ht hs]
      exact Std.OrientedCmp.eq_swap

end Numeric

/-- No other text stands before a number, so a middle text of the wrong kind is excluded, and the
order is that of the values or that of the bytes. -/
theorem compareNumeric_isLE_trans {s t u : Text} (hst : (compareNumeric s t).isLE)
    (htu : (compareNumeric t u).isLE) : (compareNumeric s u).isLE := by
  cases hs : Number.ofText? s with
  | some m =>
    cases hu : Number.ofText? u with
    | none => rw [compareNumeric_of_number_left hs hu]; rfl
    | some p =>
      cases ht : Number.ofText? t with
      | none => simp [compareNumeric_of_number_right ht hu] at htu
      | some n =>
        rw [compareNumeric_of_numbers hs ht] at hst
        rw [compareNumeric_of_numbers ht hu] at htu
        rw [compareNumeric_of_numbers hs hu]
        exact Std.TransOrd.isLE_trans hst htu
  | none =>
    cases ht : Number.ofText? t with
    | some n => simp [compareNumeric_of_number_right hs ht] at hst
    | none =>
      cases hu : Number.ofText? u with
      | some p => simp [compareNumeric_of_number_right ht hu] at htu
      | none =>
        rw [compareNumeric_of_others hs ht] at hst
        rw [compareNumeric_of_others ht hu] at htu
        rw [compareNumeric_of_others hs hu]
        exact Std.TransCmp.isLE_trans hst htu

instance : Std.TransCmp compareNumeric where
  eq_swap := compareNumeric_swap _ _
  isLE_trans := compareNumeric_isLE_trans

/-- The numeric order in full: by value among numbers, numbers first, by bytes among other texts.
The digits of a floor are always read back and two floats read from texts always compare. -/
theorem compareNumeric_by_value (s t : Text) :
    (∀ m n, Number.ofText? s = some m → Number.ofText? t = some n →
      compareNumeric s t = compare m.value n.value) ∧
    (∀ m, Number.ofText? s = some m → Number.ofText? t = none →
      compareNumeric s t = .lt ∧ compareNumeric t s = .gt) ∧
    (Number.ofText? s = none → Number.ofText? t = none →
      compareNumeric s t = compare (utf8 s) (utf8 t)) ∧
    (compareNumeric s t = .eq ↔
      (∃ m n, Number.ofText? s = some m ∧ Number.ofText? t = some n ∧ m.value = n.value) ∨
        (Number.ofText? s = none ∧ s = t)) ∧
    (∀ x, Number.ofText? s = some (.float x) →
      Numeral.integer? (Binary64.Datum.finite x).floorText = some ⌊x.value⌋) ∧
    (∀ x y, Number.ofText? s = some (.float x) → Number.ofText? t = some (.float y) →
      (Binary64.Datum.finite x).compare? (.finite y) = some (compare x.value y.value)) := by
  refine ⟨fun _ _ => compareNumeric_of_numbers, ?_, compareNumeric_of_others,
    compareNumeric_eq_iff, ?_, ?_⟩
  · intro m hs ht
    exact ⟨compareNumeric_of_number_left hs ht, compareNumeric_of_number_right ht hs⟩
  · intro x _
    rw [Binary64.integer?_floorText, Binary64.floor_eq]
  · intro x y _ _
    exact Binary64.compare?_finite x y

/-- The integer is one more than the float, which is the nearest float to it. -/
theorem compareNumeric_beyond_precision :
    Number.ofText? "9007199254740993".toList = some (.integer 9007199254740993) ∧
    Number.ofText? "9007199254740992.0".toList =
      some (.float ⟨false, 1076 * Binary64.ranksPerBinade, by decide⟩) ∧
    compareNumeric "9007199254740993".toList "9007199254740992.0".toList =
      compare (Number.integer 9007199254740993).value
        (Number.float ⟨false, 1076 * Binary64.ranksPerBinade, by decide⟩).value := by
  have hs : Number.ofText? "9007199254740993".toList = some (.integer 9007199254740993) := by
    decide +kernel
  have ht : Number.ofText? "9007199254740992.0".toList =
      some (.float ⟨false, 1076 * Binary64.ranksPerBinade, by decide⟩) := by decide +kernel
  exact ⟨hs, ht, (compareNumeric_by_value _ _).1 _ _ hs ht⟩

end Wikitext
