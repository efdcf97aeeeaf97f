import Wikitext.Escape.Basic
import Wikitext.Text.Division

/-! Cutting a text at the separators that no escape sequence hides. The marker hides the scalar
after it only when that is a designator, and is itself never a separator. -/

namespace Wikitext

open Escape

/-- The first `c` of a text outside its escape sequences. -/
def firstUnescaped (c : Char) : Text → Option (Occurrence Unit)
  | [] => none
  | [d] => if d ≠ marker ∧ d = c then some ⟨[], (), []⟩ else none
  | d :: e :: t =>
    if d = marker then
      if isDesignator e then (firstUnescaped c t).map fun o => (o.push e).push d
      else (firstUnescaped c (e :: t)).map (·.push d)
    else if d = c then some ⟨[], (), e :: t⟩
    else (firstUnescaped c (e :: t)).map (·.push d)

theorem firstUnescaped_eq {c : Char} {t : Text} {o : Occurrence Unit}
    (h : firstUnescaped c t = some o) : t = o.before ++ c :: o.after := by
  fun_induction firstUnescaped c t generalizing o <;>
    grind [Occurrence.push, Option.map_eq_some_iff]

/-- The place of the first unescaped `c`, in bytes of the UTF-8 encoding. -/
def findUnescaped (c : Char) (t : Text) : Option Nat :=
  (firstUnescaped c t).map fun o => utf8Length o.before

/-- What stands before the first unescaped `c`, and what follows it. -/
def splitUnescapedOnce (c : Char) (t : Text) : Option (Text × Text) := do
  let place ← findUnescaped c t
  let (before, _) ← divideAtByte? place t
  let (_, after) ← divideAtByte? (place + c.utf8Size) t
  return (before, after)

/-- Both offsets lie between two scalars. -/
theorem splitUnescapedOnce_eq (c : Char) (t : Text) :
    splitUnescapedOnce c t = (firstUnescaped c t).map fun o => (o.before, o.after) := by
  cases h : firstUnescaped c t with
  | none => simp [splitUnescapedOnce, findUnescaped, h]
  | some o =>
    have hlength : utf8Length o.before + c.utf8Size = utf8Length (o.before ++ [c]) := by
      simp [utf8Length]
    have hbefore : divideAtByte? (utf8Length o.before) t = some (o.before, c :: o.after) := by
      rw [firstUnescaped_eq h, divideAtByte?_append]
    have hafter : divideAtByte? (utf8Length o.before + c.utf8Size) t =
        some (o.before ++ [c], o.after) := by
      have ht : t = o.before ++ [c] ++ o.after := by simpa using firstUnescaped_eq h
      rw [hlength, ht, divideAtByte?_append]
    simp [splitUnescapedOnce, findUnescaped, h, hbefore, hafter]

theorem eq_of_splitUnescapedOnce {c : Char} {t before after : Text}
    (h : splitUnescapedOnce c t = some (before, after)) : t = before ++ c :: after := by
  rw [splitUnescapedOnce_eq, Option.map_eq_some_iff] at h
  obtain ⟨o, ho, he⟩ := h
  cases he
  exact firstUnescaped_eq ho

/-- A split as the occurrence of its separator. -/
def occurrenceOfSplit (split : Text × Text) : Occurrence Unit :=
  ⟨split.1, (), split.2⟩

theorem eq_of_occurrenceOfSplit {c : Char} {t : Text} {o : Occurrence Unit}
    (h : (splitUnescapedOnce c t).map occurrenceOfSplit = some o) : t = o.before ++ c :: o.after := by
  obtain ⟨⟨before, after⟩, hs, rfl⟩ := Option.map_eq_some_iff.mp h
  exact eq_of_splitUnescapedOnce hs

def unescapedFinder (c : Char) : Finder Unit where
  first? t := (splitUnescapedOnce c t).map occurrenceOfSplit
  after_lt h := by
    rw [eq_of_occurrenceOfSplit h]
    simp
    omega

/-- Splitting once is repeated on what follows the separator; the last remainder is a piece too. -/
def splitUnescaped (c : Char) (t : Text) : List Text :=
  ((unescapedFinder c).divide t).texts

theorem firstUnescaped_ne_marker {c : Char} {t : Text} {o : Occurrence Unit}
    (h : firstUnescaped c t = some o) : c ≠ marker := by
  fun_induction firstUnescaped c t generalizing o <;> grind [Option.map_eq_some_iff]

end Wikitext
