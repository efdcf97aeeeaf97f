import Mathlib.Algebra.Field.Rat
import Mathlib.Data.Nat.Digits.Defs
import Mathlib.Tactic.FieldSimp
import Mathlib.Tactic.Ring
import Wikitext.Number.Decimal
import Wikitext.Proofs.Text.Trim

/-! The grammar of numerals, and that the readers accept exactly what it derives. Digits are read by
their places, so the value of a decimal is a sum of powers of ten. -/

namespace Wikitext

namespace Numeral

inductive IsSign : Text → Bool → Prop where
  | absent : IsSign [] false
  | plus : IsSign ['+'] false
  | minus : IsSign ['-'] true

def IsDigits (t : Text) : Prop :=
  t ≠ [] ∧ ∀ c ∈ t, c.isDigit = true

/-- The last digit counts ones. -/
def placeValue (digits : Text) : ℕ :=
  Nat.ofDigits 10 (digits.reverse.map fun c => c.toNat - '0'.toNat)

inductive IsInteger : Text → ℤ → Prop where
  | intro {sign digits : Text} {negative : Bool} (hsign : IsSign sign negative)
    (hdigits : IsDigits digits) :
    IsInteger (sign ++ digits) (withSign negative (placeValue digits))

/-- A text of digits with an optional point, and the digits on both sides of the point. -/
inductive IsSignificand : Text → Text → Text → Prop where
  | whole {whole : Text} (hwhole : IsDigits whole) : IsSignificand whole whole []
  | point {whole fraction : Text} (hwhole : IsDigits whole)
    (hfraction : fraction = [] ∨ IsDigits fraction) :
    IsSignificand (whole ++ '.' :: fraction) whole fraction
  | fraction {fraction : Text} (hfraction : IsDigits fraction) :
    IsSignificand ('.' :: fraction) [] fraction

inductive IsExponent : Text → ℤ → Prop where
  | absent : IsExponent [] 0
  | power {c : Char} {t : Text} {k : ℤ} (hc : c = 'e' ∨ c = 'E') (hpower : IsInteger t k) :
    IsExponent (c :: t) k

/-- A text that writes a decimal, whether it begins with a minus, and the magnitude it writes. -/
inductive IsDecimal : Text → Bool → ℚ → Prop where
  | intro {sign significand whole fraction exponent : Text} {negative : Bool} {k : ℤ}
    (hsign : IsSign sign negative) (hsignificand : IsSignificand significand whole fraction)
    (hexponent : IsExponent exponent k) :
    IsDecimal (sign ++ (significand ++ exponent)) negative
      ((placeValue whole + placeValue fraction / 10 ^ fraction.length) * 10 ^ k)

theorem digitsValue_eq_placeValue (digits : Text) : digitsValue digits = placeValue digits := by
  induction digits using List.reverseRecOn with
  | nil => rfl
  | append_singleton digits c ih =>
    rw [digitsValue] at ih
    rw [digitsValue, Nat.ofDigitChars_append, ih, placeValue, placeValue, List.reverse_append,
      List.reverse_singleton, List.singleton_append, List.map_cons, Nat.ofDigits_cons]
    simp only [Nat.ofDigitChars_cons, Nat.ofDigitChars_nil]
    omega

theorem digitsValue_append (whole fraction : Text) :
    digitsValue (whole ++ fraction) =
      digitsValue whole * 10 ^ fraction.length + digitsValue fraction := by
  rw [digitsValue, Nat.ofDigitChars_append, Nat.ofDigitChars_eq_ofDigitChars_zero, digitsValue,
    digitsValue, mul_comm]

theorem placeValue_toDigits (n : ℕ) : placeValue (Nat.toDigits 10 n) = n := by
  rw [← digitsValue_eq_placeValue, digitsValue, Nat.ofDigitChars_ten_toDigits]

theorem isDigits_toDigits (n : ℕ) : IsDigits (Nat.toDigits 10 n) :=
  ⟨Nat.toDigits_ne_nil, fun _ => Nat.isDigit_of_mem_toDigits (by decide) (by decide)⟩

section Sign

theorem takeSign_append {sign t : Text} {negative : Bool} (hsign : IsSign sign negative)
    (ht : ∀ c ∈ t.head?, c ≠ '+' ∧ c ≠ '-') : takeSign (sign ++ t) = (negative, t) := by
  cases hsign with
  | absent =>
    rw [List.nil_append]
    unfold takeSign
    split
    · exact absurd rfl (ht '+' rfl).1
    · exact absurd rfl (ht '-' rfl).2
    · rfl
  | plus => rfl
  | minus => rfl

theorem exists_isSign_takeSign (t : Text) :
    ∃ sign, IsSign sign (takeSign t).1 ∧ t = sign ++ (takeSign t).2 := by
  unfold takeSign
  split
  · exact ⟨['+'], .plus, rfl⟩
  · exact ⟨['-'], .minus, rfl⟩
  · exact ⟨[], .absent, rfl⟩

end Sign

theorem IsDigits.head {t : Text} (h : IsDigits t) (u : Text) :
    ∀ c ∈ (t ++ u).head?, c.isDigit = true := by
  cases t with
  | nil => exact absurd rfl h.1
  | cons d t => simpa using h.2 d List.mem_cons_self

theorem ne_sign_of_isDigit {c : Char} (h : c.isDigit = true) : c ≠ '+' ∧ c ≠ '-' := by
  constructor <;> rintro rfl <;> exact absurd h (by decide)

theorem integer?_eq_some_iff {t : Text} {n : ℤ} : integer? t = some n ↔ IsInteger t n := by
  constructor
  · intro h
    obtain ⟨sign, hsign, ht⟩ := exists_isSign_takeSign t
    simp only [integer?, List.all_eq_true, Option.ite_none_right_eq_some, Option.some.injEq] at h
    obtain ⟨hdigits, rfl⟩ := h
    rw [digitsValue_eq_placeValue]
    nth_rewrite 1 [ht]
    exact .intro hsign hdigits
  · rintro ⟨hsign, hdigits⟩
    rename_i sign digits negative
    have hhead : ∀ c ∈ digits.head?, c ≠ '+' ∧ c ≠ '-' := by
      intro c hc
      exact ne_sign_of_isDigit (hdigits.head [] c (by simpa using hc))
    have hall : digits.all Char.isDigit = true := List.all_eq_true.mpr hdigits.2
    simp only [integer?, takeSign_append hsign hhead, hall, digitsValue_eq_placeValue]
    exact if_pos ⟨hdigits.1, trivial⟩

theorem exponent?_eq_some_iff {t : Text} {k : ℤ} : exponent? t = some k ↔ IsExponent t k := by
  cases t with
  | nil =>
    constructor
    · intro h
      obtain rfl : 0 = k := Option.some.inj h
      exact .absent
    · rintro ⟨⟩
      rfl
  | cons c t =>
    simp only [exponent?, Option.ite_none_right_eq_some, integer?_eq_some_iff]
    constructor
    · rintro ⟨hc, hpower⟩
      exact .power hc hpower
    · rintro ⟨⟩
      exact ⟨‹_›, ‹_›⟩

section Significand

variable {sign significand whole fraction exponent t : Text} {negative : Bool}

theorem takeWhile_digits (hwhole : ∀ c ∈ whole, c.isDigit = true)
    (ht : ∀ c ∈ t.head?, c.isDigit = false) : (whole ++ t).takeWhile Char.isDigit = whole := by
  have hnil : t.takeWhile Char.isDigit = [] := by
    cases t with
    | nil => rfl
    | cons c t => exact List.takeWhile_cons_of_neg (by simp [ht c rfl])
  rw [List.takeWhile_append_of_pos hwhole, hnil, List.append_nil]

theorem dropWhile_digits (hwhole : ∀ c ∈ whole, c.isDigit = true)
    (ht : ∀ c ∈ t.head?, c.isDigit = false) : (whole ++ t).dropWhile Char.isDigit = t := by
  rw [List.dropWhile_append_of_pos hwhole, dropWhile_of_head ht]

theorem takeFraction_point (hfraction : ∀ c ∈ fraction, c.isDigit = true)
    (ht : ∀ c ∈ t.head?, c.isDigit = false) :
    takeFraction ('.' :: (fraction ++ t)) = (fraction, t) := by
  rw [takeFraction, takeWhile_digits hfraction ht, dropWhile_digits hfraction ht]

theorem takeFraction_of_head (ht : ∀ c ∈ t.head?, c ≠ '.') : takeFraction t = ([], t) := by
  unfold takeFraction
  split
  · exact absurd rfl (ht '.' rfl)
  · rfl

theorem IsExponent.head {k : ℤ} (h : IsExponent exponent k) :
    ∀ c ∈ exponent.head?, c.isDigit = false ∧ c ≠ '.' := by
  cases h with
  | absent => simp
  | power hc =>
    rcases hc with rfl | rfl
    · simp
    · simp

theorem IsSignificand.head (h : IsSignificand significand whole fraction) (t : Text) :
    ∀ c ∈ (significand ++ t).head?, c ≠ '+' ∧ c ≠ '-' := by
  intro c hc
  cases h with
  | whole hwhole => exact ne_sign_of_isDigit (hwhole.head t c hc)
  | point hwhole =>
    rw [List.append_assoc] at hc
    exact ne_sign_of_isDigit (hwhole.head _ c hc)
  | fraction =>
    obtain rfl : '.' = c := by simpa using hc
    decide

theorem IsSignificand.digits (h : IsSignificand significand whole fraction) :
    (∀ c ∈ whole, c.isDigit = true) ∧ (∀ c ∈ fraction, c.isDigit = true) ∧
      ¬ (whole = [] ∧ fraction = []) := by
  cases h with
  | whole hwhole => exact ⟨hwhole.2, by simp, fun h => hwhole.1 h.1⟩
  | point hwhole hfraction =>
    refine ⟨hwhole.2, ?_, fun h => hwhole.1 h.1⟩
    rcases hfraction with rfl | hfraction
    · simp
    · exact hfraction.2
  | fraction hfraction => exact ⟨by simp, hfraction.2, fun h => hfraction.1 h.2⟩

theorem takeFraction_of_isSignificand (h : IsSignificand significand whole fraction)
    (ht : ∀ c ∈ t.head?, c.isDigit = false ∧ c ≠ '.') :
    (significand ++ t).takeWhile Char.isDigit = whole ∧
      takeFraction ((significand ++ t).dropWhile Char.isDigit) = (fraction, t) := by
  obtain ⟨hwhole, hfraction, -⟩ := h.digits
  have hdigit : ∀ c ∈ t.head?, c.isDigit = false := fun c hc => (ht c hc).1
  have hpoint : ∀ c ∈ ('.' :: (fraction ++ t)).head?, c.isDigit = false := by simp
  cases h with
  | whole =>
    rw [dropWhile_digits hwhole hdigit]
    exact ⟨takeWhile_digits hwhole hdigit, takeFraction_of_head fun c hc => (ht c hc).2⟩
  | point =>
    rw [List.append_assoc, List.cons_append, dropWhile_digits hwhole hpoint]
    exact ⟨takeWhile_digits hwhole hpoint, takeFraction_point hfraction hdigit⟩
  | fraction => exact ⟨rfl, takeFraction_point hfraction hdigit⟩

theorem decimal?_append (hsign : IsSign sign negative)
    (hsignificand : IsSignificand significand whole fraction)
    (ht : ∀ c ∈ t.head?, c.isDigit = false ∧ c ≠ '.') :
    decimal? (sign ++ (significand ++ t)) = (exponent? t).map fun k =>
      ⟨negative, digitsValue (whole ++ fraction), k - fraction.length⟩ := by
  obtain ⟨hwhole, hrest⟩ := takeFraction_of_isSignificand hsignificand ht
  obtain ⟨-, -, hne⟩ := hsignificand.digits
  simp only [decimal?, takeSign_append hsign (hsignificand.head t), hwhole, hrest, if_neg hne]

/-- What the reader leaves after the sign is a significand, unless it finds no digit at all. -/
theorem exists_isSignificand (t : Text) (hne : ¬ (t.takeWhile Char.isDigit = [] ∧
      (takeFraction (t.dropWhile Char.isDigit)).1 = [])) :
    ∃ significand, IsSignificand significand (t.takeWhile Char.isDigit)
        (takeFraction (t.dropWhile Char.isDigit)).1 ∧
      t = significand ++ (takeFraction (t.dropWhile Char.isDigit)).2 := by
  have hsplit := List.takeWhile_append_dropWhile (p := Char.isDigit) (l := t)
  have hwhole : ∀ c ∈ t.takeWhile Char.isDigit, c.isDigit = true := fun c => List.mem_takeWhile_imp
  generalize t.takeWhile Char.isDigit = whole at hne hsplit hwhole ⊢
  generalize t.dropWhile Char.isDigit = rest at hne hsplit ⊢
  unfold takeFraction at hne ⊢
  split at hne
  · rename_i after
    have hfraction : ∀ c ∈ after.takeWhile Char.isDigit, c.isDigit = true :=
      fun c => List.mem_takeWhile_imp
    have hafter := List.takeWhile_append_dropWhile (p := Char.isDigit) (l := after)
    by_cases hempty : whole = []
    · subst hempty
      refine ⟨'.' :: after.takeWhile Char.isDigit, .fraction ⟨fun h => hne ⟨rfl, h⟩, hfraction⟩, ?_⟩
      rw [← hsplit, List.nil_append, List.cons_append, hafter]
    · refine ⟨whole ++ '.' :: after.takeWhile Char.isDigit, .point ⟨hempty, hwhole⟩ ?_, ?_⟩
      · by_cases hnil : after.takeWhile Char.isDigit = []
        · exact .inl hnil
        · exact .inr ⟨hnil, hfraction⟩
      · rw [← hsplit, List.append_assoc, List.cons_append, hafter]
  · exact ⟨whole, .whole ⟨fun h => hne ⟨h, rfl⟩, hwhole⟩, hsplit.symm⟩

end Significand

theorem IsInteger.isDecimal {t : Text} {n : ℤ} (h : IsInteger t n) :
    ∃ negative q, IsDecimal t negative q := by
  obtain ⟨hsign, hdigits⟩ := h
  have hdecimal := IsDecimal.intro hsign (.whole hdigits) .absent
  rw [List.append_nil] at hdecimal
  exact ⟨_, _, hdecimal⟩

theorem IsDigits.exists_digit {digits t : Text} (h : IsDigits digits) (ht : digits ⊆ t) :
    ∃ c ∈ t, c.isDigit = true := by
  obtain ⟨c, hc⟩ := List.exists_mem_of_ne_nil digits h.1
  exact ⟨c, ht hc, h.2 c hc⟩

theorem IsDecimal.exists_digit {t : Text} {negative : Bool} {q : ℚ} (h : IsDecimal t negative q) :
    ∃ c ∈ t, c.isDigit = true := by
  obtain ⟨-, hsignificand, -⟩ := h
  cases hsignificand with
  | whole hwhole => exact hwhole.exists_digit fun c hc => by simp [hc]
  | point hwhole => exact hwhole.exists_digit fun c hc => by simp [hc]
  | fraction hfraction => exact hfraction.exists_digit fun c hc => by simp [hc]

theorem IsDecimal.not_two_signs {a b : Char} {t : Text} {negative : Bool} {q : ℚ}
    (h : IsDecimal (a :: b :: t) negative q) : ¬ ((a = '+' ∨ a = '-') ∧ (b = '+' ∨ b = '-')) := by
  rintro ⟨ha, hb⟩
  generalize htext : a :: b :: t = text at h
  obtain ⟨hsign, hsignificand, -⟩ := h
  rename_i sign significand whole fraction exponent k
  have hhead := hsignificand.head exponent
  have hsecond : (takeSign (a :: b :: t)).2 = b :: t := by rcases ha with rfl | rfl <;> rfl
  rw [htext, takeSign_append hsign hhead] at hsecond
  change significand ++ exponent = b :: t at hsecond
  rw [hsecond] at hhead
  exact not_or.mpr (hhead b rfl) hb

end Numeral

def Decimal.magnitude (d : Decimal) : ℚ :=
  d.coefficient * 10 ^ d.exponent

namespace Numeral

theorem magnitude_eq (negative : Bool) (whole fraction : Text) (k : ℤ) :
    (Decimal.mk negative (digitsValue (whole ++ fraction)) (k - fraction.length)).magnitude =
      (placeValue whole + placeValue fraction / 10 ^ fraction.length) * 10 ^ k := by
  rw [Decimal.magnitude, digitsValue_append, digitsValue_eq_placeValue, digitsValue_eq_placeValue,
    zpow_sub₀ (by norm_num), zpow_natCast, Nat.cast_add, Nat.cast_mul, Nat.cast_pow, Nat.cast_ofNat]
  field_simp

/-- The reader of decimals accepts what the grammar derives, with its value, and nothing else. -/
theorem isDecimal_iff {t : Text} {negative : Bool} {q : ℚ} :
    IsDecimal t negative q ↔
      ∃ d, decimal? t = some d ∧ d.negative = negative ∧ d.magnitude = q := by
  constructor
  · rintro ⟨hsign, hsignificand, hexponent⟩
    rw [decimal?_append hsign hsignificand hexponent.head, exponent?_eq_some_iff.mpr hexponent]
    exact ⟨_, rfl, rfl, magnitude_eq _ _ _ _⟩
  · rintro ⟨d, hd, rfl, rfl⟩
    obtain ⟨sign, hsign, ht⟩ := exists_isSign_takeSign t
    simp only [decimal?, Option.ite_none_left_eq_some, Option.map_eq_some_iff] at hd
    obtain ⟨hne, k, hk, rfl⟩ := hd
    obtain ⟨significand, hsignificand, hrest⟩ := exists_isSignificand _ hne
    have hexponent := exponent?_eq_some_iff.mp hk
    have hdecimal := IsDecimal.intro hsign hsignificand hexponent
    rw [← hrest, ← ht] at hdecimal
    rw [magnitude_eq]
    exact hdecimal

theorem integer?_eq_none_iff {t : Text} : integer? t = none ↔ ∀ n, ¬ IsInteger t n := by
  rw [Option.eq_none_iff_forall_ne_some]
  exact forall_congr' fun n => not_congr integer?_eq_some_iff

theorem decimal?_eq_none_iff {t : Text} :
    decimal? t = none ↔ ∀ negative q, ¬ IsDecimal t negative q := by
  rw [Option.eq_none_iff_forall_ne_some]
  constructor
  · intro h negative q hq
    obtain ⟨d, hd, -⟩ := isDecimal_iff.mp hq
    exact h d hd
  · intro h d hd
    exact h _ _ (isDecimal_iff.mpr ⟨d, hd, rfl, rfl⟩)

end Numeral

end Wikitext
