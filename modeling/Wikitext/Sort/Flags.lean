import Wikitext.Sort.Comparison

/-! Sort flags, as bits and as the comparison that they select. Without flags texts are compared
ascending and without regard to case. -/

namespace Wikitext

structure SortFlags where
  numeric : Bool
  caseSensitive : Bool
  descending : Bool
deriving DecidableEq

inductive FlagsError where
  | unknownKeyword (word : Text)
  | undefinedBits (bits : UInt8)
deriving DecidableEq

def FlagsError.message : FlagsError → String
  | .unknownKeyword word =>
    "Unknown sort option '" ++ String.ofList word ++
      "' (expected numeric, alpha, cs, ncs, desc or asc)"
  | .undefinedBits bits =>
    "Invalid sort option bits 0b" ++ String.ofList (Nat.toDigits 2 bits.toNat) ++
      ": only the low three bits are defined"

namespace SortFlags

def empty : SortFlags :=
  ⟨false, false, false⟩

instance : Inhabited SortFlags := ⟨empty⟩

def bits (f : SortFlags) : UInt8 :=
  (if f.numeric then 4 else 0) + (if f.caseSensitive then 2 else 0) +
    (if f.descending then 1 else 0)

def ofBits (b : UInt8) : Except FlagsError SortFlags :=
  if b ≤ 7 then .ok ⟨4 ≤ b, 2 ≤ b % 4, b % 2 = 1⟩ else .error (.undefinedBits b)

def union (f g : SortFlags) : SortFlags :=
  ⟨f.numeric || g.numeric, f.caseSensitive || g.caseSensitive, f.descending || g.descending⟩

/-- Whether `f` has every flag that `g` has. -/
def contains (f g : SortFlags) : Bool :=
  (!g.numeric || f.numeric) && (!g.caseSensitive || f.caseSensitive) &&
    (!g.descending || f.descending)

/-- Case matters to texts only, so the numeric flag goes first. -/
def strategy (f : SortFlags) : Strategy :=
  if f.numeric then .numeric
  else if f.caseSensitive then .caseSensitive
  else .caseInsensitive

def direction (f : SortFlags) : Direction :=
  if f.descending then .descending else .ascending

def comparison (f : SortFlags) : Comparison :=
  ⟨f.strategy, f.direction⟩

/-- The shortest keywords that select the comparison. -/
def display (f : SortFlags) : String :=
  (match f.strategy with
    | .numeric => "numeric"
    | .caseSensitive => "alpha cs"
    | .caseInsensitive => "alpha ncs") ++
  (match f.direction with
    | .ascending => " asc"
    | .descending => " desc")

theorem ofBits_bits (f : SortFlags) : ofBits f.bits = .ok f := by
  obtain ⟨a, b, c⟩ := f
  cases a <;> cases b <;> cases c <;> rfl

theorem bits_le (f : SortFlags) : f.bits ≤ 7 := by
  obtain ⟨a, b, c⟩ := f
  cases a <;> cases b <;> cases c <;> decide

end SortFlags

end Wikitext
