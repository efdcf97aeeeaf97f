import Wikitext.Number.Decimal

/-! Finite binary64 numbers by sign and rank. The ranks of the non-negative floats count them from
zero upwards; written in binary, a rank is the exponent and the fraction field of its float. All
floats are multiples of a unit, the least positive one. A text may also be read as an
infinity or as no number at all, and these data are compared and printed too. -/

namespace Wikitext

/-- A binade has `2 ^ 52` ranks, one for each fraction. -/
def Binary64.ranksPerBinade : Nat :=
  4503599627370496

/-- The rank of infinity, which follows that of the greatest finite float. -/
def Binary64.infiniteRank : Nat :=
  2047 * ranksPerBinade

structure Binary64 where
  negative : Bool
  rank : Nat
  rank_lt : rank < Binary64.infiniteRank
deriving DecidableEq

namespace Binary64

/-- The unit is `2 ^ -1074`. -/
def unitsPerOne : Nat :=
  1 <<< 1074

/-- How many units make up the float of a rank. -/
def unitsOfRank (rank : Nat) : Nat :=
  if rank / ranksPerBinade = 0 then rank
  else (ranksPerBinade + rank % ranksPerBinade) <<< (rank / ranksPerBinade - 1)

/-- The quotient rounded to the nearest integer, from the middle to the even one. -/
def divideToNearest (num den : Nat) : Nat :=
  let quotient := num / den
  let rest := num % den
  if 2 * rest < den ∨ 2 * rest = den ∧ quotient % 2 = 0 then quotient else quotient + 1

/-- The rank nearest to `num / den` units. From the second binade on a rank stands for `2 ^ shift`
units, and rounding up out of a binade leads to the first rank of the next one. -/
def nearestRank (num den : Nat) : Nat :=
  let shift := (num / den).log2 - 52
  shift * ranksPerBinade + divideToNearest num (den <<< shift)

end Binary64

/-- The rank nearest to the magnitude of a decimal. As `10 ^ k` is at least `2 ^ (3 * k)`, an
exponent that leads out of the range of floats is noticed before any power is formed. -/
def Decimal.nearestRank (d : Decimal) : Nat :=
  if d.coefficient = 0 then 0
  else
    match d.exponent with
    | .ofNat k =>
      if 1024 ≤ d.coefficient.log2 + 3 * k then Binary64.infiniteRank
      else Binary64.nearestRank (d.coefficient * Nat.pow 10 k * Binary64.unitsPerOne) 1
    | .negSucc k =>
      if d.coefficient.log2 + 1076 ≤ 3 * (k + 1) then 0
      else Binary64.nearestRank (d.coefficient * Binary64.unitsPerOne) (Nat.pow 10 (k + 1))

namespace Binary64

def units (x : Binary64) : Int :=
  Numeral.withSign x.negative (unitsOfRank x.rank)

def floor (x : Binary64) : Int :=
  x.units / unitsPerOne

def isInteger (x : Binary64) : Bool :=
  x.units % unitsPerOne = 0

/-- The place among the signed ranks, which the two zeros share. -/
def place (x : Binary64) : Int :=
  Numeral.withSign x.negative x.rank

/-- The interchange format: the sign bit above the rank. -/
def bits (x : Binary64) : Nat :=
  (if x.negative then 2048 * ranksPerBinade else 0) + x.rank

/-- The interchange format in sixteen hexadecimal digits. -/
def hex (x : Binary64) : Text :=
  (Nat.toDigits 16 x.bits).leftpad 16 '0'

/-- What the format holds: finite numbers, infinities, and what is no number. -/
inductive Datum where
  | finite (x : Binary64)
  | infinite (negative : Bool)
  | notANumber
deriving DecidableEq

namespace Datum

def finite? : Datum → Option Binary64
  | .finite x => some x
  | .infinite _ => none
  | .notANumber => none

/-- The datum nearest to a decimal. Zeros keep the sign. -/
def ofDecimal (d : Decimal) : Datum :=
  if h : d.nearestRank < infiniteRank then .finite ⟨d.negative, d.nearestRank, h⟩
  else .infinite d.negative

/-- The words for what is not finite. The case of their letters does not matter. -/
def ofWord? (t : Text) : Option Datum :=
  let (negative, word) := Numeral.takeSign t
  let word := lowerAscii word
  if word = ['i', 'n', 'f'] ∨ word = ['i', 'n', 'f', 'i', 'n', 'i', 't', 'y'] then
    some (.infinite negative)
  else if word = ['n', 'a', 'n'] then some .notANumber
  else none

def ofText? (t : Text) : Option Datum :=
  ((Numeral.decimal? t).map ofDecimal).or (ofWord? t)

/-- Infinities stand beside the ranks of the finite numbers. -/
def place? : Datum → Option Int
  | .finite x => some x.place
  | .infinite negative => some (Numeral.withSign negative infiniteRank)
  | .notANumber => none

/-- Data without a place are not compared. -/
def compare? (x y : Datum) : Option Ordering :=
  match x.place?, y.place? with
  | some m, some n => some (Ord.compare m n)
  | _, _ => none

/-- The floor as it is printed: in all its digits, and with the sign of the negative zero. -/
def floorText : Datum → Text
  | .finite x =>
    if x.negative then '-' :: Nat.toDigits 10 x.floor.natAbs else Nat.toDigits 10 x.floor.natAbs
  | .infinite true => ['-', 'i', 'n', 'f']
  | .infinite false => ['i', 'n', 'f']
  | .notANumber => ['N', 'a', 'N']

def exceedsFloor : Datum → Bool
  | .finite x => !x.isInteger
  | .infinite _ => false
  | .notANumber => false

end Datum

end Binary64

end Wikitext
