import Wikitext.Proofs.Pattern.Apart

/-! Two substitutions, one after the other. The second one scans a text that the first one has
written, and still finds there the parts of the pattern. -/

namespace Wikitext

namespace Pattern

variable {token other value : Text}

theorem apart_toDigits (h : ∀ c ∈ token, ¬ c.isDigit) (n : ℕ) : Apart token (Nat.toDigits 10 n) := by
  refine ⟨Nat.toDigits_ne_nil, List.disjoint_left.mpr fun c hc hmem => h c hmem ?_⟩
  exact Nat.isDigit_of_mem_toDigits (by decide) (by decide) hc

theorem infix_applyPattern_iff (hne : token ≠ []) (hother : Apart token other)
    (hvalue : Apart token value) (pattern : Text) :
    token <:+: applyPattern value other pattern ↔ token <:+: pattern := by
  have hparts := isParts_divide hother.ne_nil pattern
  rw [applyPattern_of_isParts hother.ne_nil hparts, hvalue.infix_intercalate_iff hne,
    ← hother.infix_intercalate_iff hne, hparts.join]

/-- What the token needs after the part, to be complete, is apart from the other one. -/
theorem followedFirst_applyPattern_iff (hne : token ≠ []) (hother : Apart token other)
    (hvalue : Apart token value) (part : Text) :
    FollowedFirst token (applyPattern value other part) ↔ FollowedFirst token part := by
  have hstart : List.Disjoint token.dropLast other :=
    fun c hc hmem => hother.disjoint hmem (List.dropLast_subset token hc)
  rw [followedFirst_iff hne, followedFirst_iff hne, ← applyPattern_append_right hstart,
    infix_applyPattern_iff hne hother hvalue]

theorem IsParts.map_applyPattern {pattern : Text} {parts : List Text} (hne : token ≠ [])
    (hother : Apart token other) (hvalue : Apart token value) (h : IsParts token pattern parts) :
    IsParts token (applyPattern value other pattern) (parts.map (applyPattern value other)) := by
  have hapart : Apart other token := ⟨hne, List.disjoint_symm hother.disjoint⟩
  refine ⟨mt List.map_eq_nil_iff.mp h.ne_nil, ?_, ?_, ?_⟩
  · rw [← h.join, hapart.applyPattern_intercalate]
  · intro s hs
    rw [← List.map_dropLast] at hs
    obtain ⟨part, hpart, rfl⟩ := List.mem_map.mp hs
    exact (followedFirst_applyPattern_iff hne hother hvalue part).mpr (h.first part hpart)
  · intro s hs
    rw [List.getLast?_map] at hs
    obtain ⟨part, hpart, rfl⟩ := Option.map_eq_some_iff.mp hs
    exact mt (infix_applyPattern_iff hne hother hvalue part).mp (h.last part hpart)

theorem followedFirst_singleton {c : Char} {part : Text} (h : c ∉ part) :
    FollowedFirst [c] part := by
  rw [followedFirst_iff (List.cons_ne_nil c []), List.dropLast_singleton, List.append_nil,
    List.singleton_infix_iff]
  exact h

end Pattern

open Pattern

/-- The index is put in first. A token without digits is then found in the parts between the
indices only, and the values are never searched for the index token. -/
theorem applyPatternWithIndex_by_parts (indexToken token pattern : Text) :
    (indexToken ≠ [] → (∀ c ∈ token, ¬ c.isDigit) →
      ∃ parts, (∀ ps, IsParts indexToken pattern ps ↔ ps = parts) ∧
        ∀ value index, applyPatternWithIndex value indexToken index token pattern =
          (Nat.toDigits 10 index).intercalate (parts.map (applyPattern value token))) ∧
    ∀ value index,
      applyPatternWithIndex value [] index token pattern = applyPattern value token pattern := by
  constructor
  · intro hne hdigits
    refine ⟨_, fun ps => isParts_iff hne, fun value index => ?_⟩
    rw [applyPatternWithIndex, applyPattern_of_isParts hne (isParts_divide hne pattern)]
    exact (apart_toDigits hdigits index).applyPattern_intercalate value _
  · intro value index
    rw [applyPatternWithIndex, applyPattern_nil]

/-- The two tokens overlap in the pattern, and the value contains the index token. -/
theorem applyPatternWithIndex_by_parts_overlap :
    (∀ c ∈ ['a', 'b'], ¬ c.isDigit) ∧
    IsParts ['a', 'a'] ['a', 'a', 'a', 'b', 'a', 'a'] [[], ['a', 'b'], []] ∧
    applyPatternWithIndex ['a', 'a'] ['a', 'a'] 10 ['a', 'b'] ['a', 'a', 'a', 'b', 'a', 'a'] =
      ['1', '0'] ++ ['a', 'a'] ++ ['1', '0'] := by
  have hdigits : ∀ c ∈ ['a', 'b'], ¬ c.isDigit := by simp
  have hparts : IsParts ['a', 'a'] ['a', 'a', 'a', 'b', 'a', 'a'] [[], ['a', 'b'], []] := by decide
  obtain ⟨parts, hunique, hindex⟩ := (applyPatternWithIndex_by_parts ['a', 'a'] ['a', 'b']
    ['a', 'a', 'a', 'b', 'a', 'a']).1 (by decide) hdigits
  refine ⟨hdigits, hparts, ?_⟩
  rw [hindex, ← (hunique _).mp hparts]
  cbv

/-- Substitutions that cannot see each other may change places. A value may contain its own token. -/
theorem applyPattern_comm {token₁ token₂ value₁ value₂ : Text} (hvalue₁ : value₁ ≠ [])
    (hvalue₂ : value₂ ≠ []) (htokens : List.Disjoint token₁ token₂)
    (hdisjoint₁ : List.Disjoint value₁ token₂) (hdisjoint₂ : List.Disjoint value₂ token₁)
    (pattern : Text) :
    applyPattern value₂ token₂ (applyPattern value₁ token₁ pattern) =
      applyPattern value₁ token₁ (applyPattern value₂ token₂ pattern) := by
  by_cases hne₁ : token₁ = []
  · simp only [hne₁, applyPattern_nil]
  by_cases hne₂ : token₂ = []
  · simp only [hne₂, applyPattern_nil]
  have hparts := isParts_divide hne₁ pattern
  have hmapped :=
    hparts.map_applyPattern hne₁ ⟨hne₂, List.disjoint_symm htokens⟩ ⟨hvalue₂, hdisjoint₂⟩
  have hapart : Apart token₂ value₁ := ⟨hvalue₁, hdisjoint₁⟩
  rw [applyPattern_of_isParts hne₁ hparts, hapart.applyPattern_intercalate,
    applyPattern_of_isParts hne₁ hmapped]

theorem applyPattern_comm_own_tokens :
    List.Disjoint ['a', 'a'] ['c', 'c'] ∧ List.Disjoint ['a', 'a', 'b'] ['c', 'c'] ∧
    List.Disjoint ['d', 'c', 'c'] ['a', 'a'] ∧
    applyPattern ['d', 'c', 'c'] ['c', 'c']
      (applyPattern ['a', 'a', 'b'] ['a', 'a'] ['a', 'a', 'a', 'c', 'c', 'c']) =
        ['a', 'a', 'b', 'a', 'd', 'c', 'c', 'c'] ∧
    applyPattern ['a', 'a', 'b'] ['a', 'a']
      (applyPattern ['d', 'c', 'c'] ['c', 'c'] ['a', 'a', 'a', 'c', 'c', 'c']) =
        ['a', 'a', 'b', 'a', 'd', 'c', 'c', 'c'] := by
  have htokens : List.Disjoint ['a', 'a'] ['c', 'c'] := by simp
  have hvalue₁ : List.Disjoint ['a', 'a', 'b'] ['c', 'c'] := by simp
  have hvalue₂ : List.Disjoint ['d', 'c', 'c'] ['a', 'a'] := by simp
  have hfilled : applyPattern ['d', 'c', 'c'] ['c', 'c']
      (applyPattern ['a', 'a', 'b'] ['a', 'a'] ['a', 'a', 'a', 'c', 'c', 'c']) =
        ['a', 'a', 'b', 'a', 'd', 'c', 'c', 'c'] := by cbv
  have hcomm := applyPattern_comm (by simp) (by simp) htokens hvalue₁ hvalue₂
    ['a', 'a', 'a', 'c', 'c', 'c']
  exact ⟨htokens, hvalue₁, hvalue₂, hfilled, hcomm.symm.trans hfilled⟩

/-- A scalar that is new to the pattern marks exactly the occurrences of the token. -/
theorem applyPattern_rename {c : Char} {pattern : Text} (hc : c ∉ pattern) (token : Text) :
    (∀ value, applyPattern value [c] (applyPattern [c] token pattern) =
      applyPattern value token pattern) ∧
    applyPattern token [c] (applyPattern [c] token pattern) = pattern := by
  have hrename : ∀ value, applyPattern value [c] (applyPattern [c] token pattern) =
      applyPattern value token pattern := by
    intro value
    have hnone : ∀ {t : Text}, c ∉ t → applyPattern value [c] t = t := fun {t} ht =>
      applyPattern_of_absent (mt (List.singleton_infix_iff c t).mp ht) value
    by_cases hne : token = []
    · rw [hne, applyPattern_nil, applyPattern_nil, hnone hc]
    · induction pattern using parts_induction hne with
      | absent t ht =>
        rw [applyPattern_of_absent ht, applyPattern_of_absent ht, hnone hc]
      | occurrence part rest hpart ih =>
        obtain ⟨hpartc, hrestc⟩ : c ∉ part ∧ c ∉ rest := by
          simp only [List.mem_append, not_or] at hc
          exact ⟨hc.1.1, hc.2⟩
        rw [applyPattern_of_followedFirst hne hpart, applyPattern_of_followedFirst hne hpart,
          applyPattern_of_followedFirst (List.cons_ne_nil c []) (followedFirst_singleton hpartc),
          ih hrestc]
  exact ⟨hrename, (hrename token).trans (applyPattern_token token pattern)⟩

theorem applyPattern_rename_overlap :
    '#' ∉ ['a', 'a', 'a', 'a', 'a'] ∧
    applyPattern ['#'] ['a', 'a'] ['a', 'a', 'a', 'a', 'a'] = ['#', '#', 'a'] ∧
    applyPattern ['#', 'b'] ['#'] ['#', '#', 'a'] =
      applyPattern ['#', 'b'] ['a', 'a'] ['a', 'a', 'a', 'a', 'a'] ∧
    applyPattern ['a', 'a'] ['#'] ['#', '#', 'a'] = ['a', 'a', 'a', 'a', 'a'] := by
  have hfresh : '#' ∉ ['a', 'a', 'a', 'a', 'a'] := by decide
  have hmarked : applyPattern ['#'] ['a', 'a'] ['a', 'a', 'a', 'a', 'a'] = ['#', '#', 'a'] := by cbv
  obtain ⟨hvalue, hback⟩ := applyPattern_rename hfresh ['a', 'a']
  rw [hmarked] at hback
  have hfilled := hvalue ['#', 'b']
  rw [hmarked] at hfilled
  exact ⟨hfresh, hmarked, hfilled, hback⟩

end Wikitext
