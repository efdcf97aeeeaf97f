import Wikitext.Escape.PairList
import Wikitext.Proofs.Escape.Blank
import Wikitext.Proofs.Function.Switch

/-! A switch as a dictionary. Over escaped labels and values it looks up the key, since neither the
trimming nor the search for the equals sign can tell an escaped text from a plain one. -/

namespace Wikitext

open Escape

theorem eq_of_designator?_equals {c : Char} (h : designator? c = some '=') : c = '=' := by
  have hliteral := literal?_of_designator? h
  exact (Option.some.inj hliteral).symm

theorem equals_notMem_escape {t : Text} (h : '=' ∉ t) : '=' ∉ escape t := by
  intro hmem
  rcases mem_escape hmem with hmarker | ⟨d, hd, hwritten | ⟨-, rfl⟩⟩
  · exact absurd hmarker (by decide)
  · exact h (eq_of_designator?_equals hwritten ▸ hd)
  · exact h hd

theorem ofText_writeItem {p : Text × Text} (hpadding : Unpadded isBlank p.1) (hequals : '=' ∉ p.1) :
    Case.ofText (writeItem p) = ⟨p.1, some ((escape p.2).rdropWhile isBlank)⟩ := by
  have htrim : trimBlanks (writeItem p) = escape p.1 ++ '=' :: (escape p.2).rdropWhile isBlank :=
    trimWhere_append_cons (by decide) (isBlank_head_escape hpadding.1) _
  have hparts : CaseParts (writeItem p) (escape p.1) (some ((escape p.2).rdropWhile isBlank)) :=
    .valued htrim (equals_notMem_escape hequals)
  rw [hparts.ofText_eq, unescape_escape]

theorem select_writeItem (key : Text) {pairs : List (Text × Text)}
    (h : ∀ p ∈ pairs, Unpadded isBlank p.1 ∧ '=' ∉ p.1) :
    Case.select key ((pairs.map writeItem).map Case.ofText) =
      (pairs.lookup key).map fun value => (escape value).rdropWhile isBlank := by
  induction pairs with
  | nil => rfl
  | cons p pairs ih =>
    obtain ⟨hpadding, hequals⟩ := h p List.mem_cons_self
    have hrest := ih fun q hq => h q (List.mem_cons_of_mem p hq)
    have hitem := ofText_writeItem hpadding hequals
    obtain ⟨label, value⟩ := p
    by_cases hkey : key = label
    · simp [Case.select, hitem, hkey]
    · have hne : (key == label) = false := beq_eq_false_iff_ne.mpr hkey
      simpa [Case.select, hitem, Ne.symm hkey, List.lookup_cons, hne] using hrest

theorem unescape_trimBlanks_rdropWhile (t : Text) :
    unescape (trimBlanks ((escape t).rdropWhile isBlank)) = trimBlanks t := by
  have h : trimBlanks ((escape t).rdropWhile isBlank) = trimBlanks (escape t) :=
    trimWhere_rdropWhile isBlank (escape t)
  rw [h, unescape_trimBlanks_escape]

theorem result_switch_writeItem {key : Text} (hkey : Unpadded isBlank key)
    {pairs : List (Text × Text)} (hpairs : ∀ p ∈ pairs, Unpadded isBlank p.1 ∧ '=' ∉ p.1)
    {args : List Text} (hne : args ≠ []) {fallback : Text}
    (hsplit : splitDefault args = (pairs.map writeItem, escape fallback)) :
    (switch (escape key :: args)).result .verbatim =
      ((pairs.lookup key).map trimBlanks).getD (trimBlanks fallback) := by
  have hargs : args.map (Host.verbatim.expand .full) = args := List.map_id' args
  have hraw : unescape (trimBlanks (Host.verbatim.expand .full (escape key))) = key :=
    (unescape_trimBlanks_escape key).trans (trimWhere_of_unpadded hkey)
  rw [result_switch .verbatim _ hne, hargs, hraw, hsplit, select_writeItem key hpairs]
  cases pairs.lookup key with
  | none => exact unescape_trimBlanks_escape fallback
  | some value => exact unescape_trimBlanks_rdropWhile value

/-- Looking up a key among escaped pairs, with a default at the end or without one. -/
theorem switch_escaped_eq_lookup {key : Text} {pairs : List (Text × Text)}
    (hkey : Unpadded isBlank key) (hpairs : ∀ p ∈ pairs, Unpadded isBlank p.1 ∧ '=' ∉ p.1) :
    (∀ fallback, '=' ∉ fallback →
      (switch (escape key :: (pairs.map writeItem ++ [escape fallback]))).result .verbatim =
        ((pairs.lookup key).map trimBlanks).getD (trimBlanks fallback)) ∧
    (switch (escape key :: pairs.map writeItem)).result .verbatim =
      ((pairs.lookup key).map trimBlanks).getD [] := by
  constructor
  · intro fallback hfallback
    refine result_switch_writeItem hkey hpairs (by simp) ?_
    rw [splitDefault_eq (by simp), List.getLastD_concat, if_neg (equals_notMem_escape hfallback),
      List.dropLast_concat]
  · rcases List.eq_nil_or_concat' pairs with rfl | ⟨before, p, rfl⟩
    · rfl
    · have hequals : '=' ∈ writeItem p := by simp [writeItem]
      have hsplit : splitDefault ((before ++ [p]).map writeItem) =
          ((before ++ [p]).map writeItem, escape []) := by
        rw [List.map_append, List.map_singleton, splitDefault_eq (by simp), List.getLastD_concat,
          if_pos hequals]
        rfl
      exact result_switch_writeItem hkey hpairs (by simp) hsplit

/-- A value full of equals signs, bars and blanks, behind another pair with the same label. -/
theorem switch_escaped_eq_lookup_backslash :
    Unpadded isBlank ['a', '\\'] ∧
    (∀ p ∈ [(['a', '\\'], [' ', '=', ' ', '|', '\n']), (['a', '\\'], ['x'])],
      Unpadded isBlank p.1 ∧ '=' ∉ p.1) ∧ '=' ∉ [' ', 'd', '\\'] ∧
    (switch [['a', '\\', '\\'], writeItem (['a', '\\'], [' ', '=', ' ', '|', '\n']),
      writeItem (['a', '\\'], ['x']), [' ', 'd', '\\', '\\']]).result .verbatim =
      ['=', ' ', '|'] := by
  have hkey : Unpadded isBlank ['a', '\\'] := by decide
  have hpairs : ∀ p ∈ [(['a', '\\'], [' ', '=', ' ', '|', '\n']), (['a', '\\'], ['x'])],
      Unpadded isBlank p.1 ∧ '=' ∉ p.1 := by
    intro p hp
    have hp1 : p.1 = ['a', '\\'] := by
      rcases List.mem_pair.mp hp with rfl | rfl <;> rfl
    rw [hp1]
    exact ⟨hkey, by decide⟩
  have hfallback : '=' ∉ [' ', 'd', '\\'] := by decide
  exact ⟨hkey, hpairs, hfallback, (switch_escaped_eq_lookup hkey hpairs).1 _ hfallback⟩

end Wikitext
