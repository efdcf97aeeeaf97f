import Wikitext.Escape.PairList
import Wikitext.Proofs.Escape.Split

/-! A written list of pairs is read back unchanged. -/

namespace Wikitext

open Escape

theorem passes_writeItem {c : Char} (heq : c ≠ '=') {p : Text × Text}
    (h : (sequence? c).isSome = true ∨ c ∉ p.1 ∧ c ∉ p.2) : Passes c (writeItem p) := by
  have hequals : Passes c ['='] := passes_singleton (by decide) heq.symm
  have hkey : Passes c (escape p.1) := passes_escape (h.imp_right And.left)
  have hvalue : Passes c (escape p.2) := passes_escape (h.imp_right And.right)
  exact hkey.append (hequals.append hvalue)

/-- An equals sign in the key is hidden by its sequence, so the one that follows the key is first. -/
theorem readItem_writeItem (p : Text × Text) : readItem (writeItem p) = some p := by
  have hkey : Passes '=' (escape p.1) := passes_escape (.inl rfl)
  rw [readItem, writeItem, splitUnescapedOnce_of_passes (by decide) hkey]
  simp [unescape_escape]

/-- The separator may be a scalar that escaping rewrites, even one that is a designator itself, or
any scalar that occurs in none of the texts. -/
theorem readPairs_writePairs {c : Char} {pairs : List (Text × Text)} (heq : c ≠ '=')
    (hmarker : c ≠ marker)
    (h : (sequence? c).isSome = true ∨ ∀ p ∈ pairs, c ∉ p.1 ∧ c ∉ p.2) :
    readPairs c (writePairs c pairs) = pairs := by
  cases pairs with
  | nil =>
    have hempty : splitUnescaped c [] = [[]] :=
      splitUnescaped_of_none (splitUnescapedOnce_eq_none_of_passes (passes_nil c))
    have hnone : readItem [] = none := rfl
    simp [readPairs, writePairs, hempty, hnone]
  | cons p rest =>
    have hitems : ∀ s ∈ (p :: rest).map writeItem, Passes c s := by
      intro s hs
      obtain ⟨q, hq, rfl⟩ := List.mem_map.mp hs
      exact passes_writeItem heq (h.imp_right fun hh => hh q hq)
    rw [readPairs, writePairs, splitUnescaped_intercalate hmarker (by simp) hitems,
      List.filterMap_map]
    have hread : readItem ∘ writeItem = some := funext readItem_writeItem
    rw [hread, List.filterMap_some]

/-- A separator that escaping rewrites and that is a designator, and one that occurs nowhere. -/
theorem readPairs_writePairs_colon_comma :
    (sequence? ':').isSome = true ∧
    readPairs ':' (writePairs ':' [(['\\', ':'], []), ([], ['=', 'é', '\\'])]) =
      [(['\\', ':'], []), ([], ['=', 'é', '\\'])] ∧
    (∀ p ∈ [(['a', '\\'], ['b'])], ',' ∉ p.1 ∧ ',' ∉ p.2) ∧
    readPairs ',' (writePairs ',' [(['a', '\\'], ['b'])]) = [(['a', '\\'], ['b'])] :=
  ⟨rfl, readPairs_writePairs (by decide) (by decide) (.inl rfl), by decide,
    readPairs_writePairs (by decide) (by decide) (.inr (by decide))⟩

end Wikitext
