import Wikitext.Text.Basic

/-! Numerals: a sign and digits for an integer; a point, an exponent or both for a decimal. At
least one digit stands beside the point. -/

namespace Wikitext

/-- The number `coefficient * 10 ^ exponent`, with its sign. -/
structure Decimal where
  negative : Bool
  coefficient : Nat
  exponent : Int
deriving DecidableEq

namespace Numeral

/-- A single sign may stand in front; the answer says whether it is a minus. -/
def takeSign : Text → Bool × Text
  | '+' :: t => (false, t)
  | '-' :: t => (true, t)
  | t => (false, t)

def digitsValue (t : Text) : Nat :=
  Nat.ofDigitChars 10 t 0

def withSign (negative : Bool) (n : Nat) : Int :=
  if negative then -n else n

/-- The number that a sign and one or more digits write. -/
def integer? (t : Text) : Option Int :=
  let (negative, digits) := takeSign t
  if digits ≠ [] ∧ digits.all Char.isDigit then some (withSign negative (digitsValue digits))
  else none

/-- The power of ten at the end of a decimal. -/
def exponent? : Text → Option Int
  | [] => some 0
  | c :: t => if c = 'e' ∨ c = 'E' then integer? t else none

/-- The digits after a point, and what follows them. -/
def takeFraction : Text → Text × Text
  | '.' :: t => (t.takeWhile Char.isDigit, t.dropWhile Char.isDigit)
  | t => ([], t)

def decimal? (t : Text) : Option Decimal :=
  let (negative, t) := takeSign t
  let whole := t.takeWhile Char.isDigit
  let (fraction, t) := takeFraction (t.dropWhile Char.isDigit)
  if whole = [] ∧ fraction = [] then none
  else (exponent? t).map fun e =>
    ⟨negative, digitsValue (whole ++ fraction), e - fraction.length⟩

end Numeral

end Wikitext
