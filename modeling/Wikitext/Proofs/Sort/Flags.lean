import Mathlib.Data.FinEnum
import Wikitext.Sort.Flags

/-! Bytes read as flags, and the three flags one by one. A flag is read and changed through its bit,
and where each step of a run gives a value or leaves it as it is, the last step that gives one
decides. -/

namespace Wikitext

inductive Flag where
  | numeric
  | caseSensitive
  | descending
deriving DecidableEq

namespace Flag

def alone : Flag → SortFlags
  | numeric => ⟨true, false, false⟩
  | caseSensitive => ⟨false, true, false⟩
  | descending => ⟨false, false, true⟩

def put (flag : Flag) (on : Bool) (f : SortFlags) : SortFlags :=
  match flag with
  | numeric => { f with numeric := on }
  | caseSensitive => { f with caseSensitive := on }
  | descending => { f with descending := on }

/-- The bit of the flag set or cleared in a byte. -/
def assign (flag : Flag) (on : Bool) (b : UInt8) : UInt8 :=
  if on then b ||| flag.alone.bits else b &&& ~~~flag.alone.bits

theorem contains_put (flag other : Flag) (on : Bool) (f : SortFlags) :
    (flag.put on f).contains other.alone =
      (if other = flag then some on else none).getD (f.contains other.alone) := by
  cases flag <;> cases other <;> simp [put, alone, SortFlags.contains]

theorem bits_put (flag : Flag) (on : Bool) (f : SortFlags) :
    (flag.put on f).bits = flag.assign on f.bits := by
  obtain ⟨a, b, c⟩ := f
  cases flag <;> cases on <;> cases a <;> cases b <;> cases c <;> rfl

end Flag

namespace SortFlags

theorem le_iff_masked : ∀ b : UInt8, b ≤ 7 ↔ b &&& ~~~7 = 0 := by
  decide +kernel

theorem bits_decoded : ∀ b : UInt8, b ≤ 7 → bits ⟨4 ≤ b, 2 ≤ b % 4, b % 2 = 1⟩ = b := by
  decide +kernel

theorem ofBits_of_le {b : UInt8} (h : b ≤ 7) : ∃ f, ofBits b = .ok f ∧ f.bits = b :=
  ⟨_, if_pos h, bits_decoded b h⟩

theorem ofBits_of_not_le {b : UInt8} (h : ¬ b ≤ 7) : ofBits b = .error (.undefinedBits b) :=
  if_neg h

/-- A byte is refused or kept as it is. -/
theorem ofBits_eq_ok_iff {b : UInt8} {f : SortFlags} : ofBits b = .ok f ↔ b ≤ 7 ∧ f.bits = b := by
  constructor
  · intro h
    by_cases hle : b ≤ 7
    · obtain ⟨g, hg, hbits⟩ := ofBits_of_le hle
      cases hg.symm.trans h
      exact ⟨hle, hbits⟩
    · cases (ofBits_of_not_le hle).symm.trans h
  · rintro ⟨-, rfl⟩
    exact ofBits_bits f

theorem contains_empty (flag : Flag) : empty.contains flag.alone = false := by
  cases flag <;> rfl

theorem contains_union (f g : SortFlags) (flag : Flag) :
    (f.union g).contains flag.alone = (f.contains flag.alone || g.contains flag.alone) := by
  cases flag <;> simp [union, contains, Flag.alone]

theorem bits_union (f g : SortFlags) : (f.union g).bits = f.bits ||| g.bits := by
  obtain ⟨a, b, c⟩ := f
  obtain ⟨a', b', c'⟩ := g
  cases a <;> cases b <;> cases c <;> cases a' <;> cases b' <;> cases c' <;> rfl

theorem contains_eq_bits (f : SortFlags) (flag : Flag) :
    f.contains flag.alone = (f.bits &&& flag.alone.bits == flag.alone.bits) := by
  obtain ⟨a, b, c⟩ := f
  cases flag <;> cases a <;> cases b <;> cases c <;> rfl

end SortFlags

/-- By induction on the steps, from any state: what the first step sets is the default for the rest. -/
theorem foldl_eq_last_given {σ ε β : Type} {step : σ → ε → σ} (get : σ → β) {gives? : ε → Option β}
    (h : ∀ s e, get (step s e) = (gives? e).getD (get s)) (es : List ε) (s : σ) :
    get (es.foldl step s) = ((es.filterMap gives?).getLast?).getD (get s) := by
  induction es generalizing s with
  | nil => rfl
  | cons e es ih =>
    rw [List.foldl_cons, ih, h]
    cases he : gives? e with
    | none => rw [List.filterMap_cons_none he, Option.getD_none]
    | some b => rw [List.filterMap_cons_some he, List.getLast?_cons, Option.getD_some,
        Option.getD_some]

end Wikitext
