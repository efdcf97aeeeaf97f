import Mathlib.Data.List.Basic
import Wikitext.Proofs.Sort.Flags
import Wikitext.Proofs.Text.Words
import Wikitext.Sort.Keyword

/-! Sort flags read from words. The strict reader fails at the first word that is no keyword, the
lenient one passes over it, and a flag is set exactly when the last word of its group sets it. -/

namespace Wikitext

namespace Keyword

def IsSpelled (word : Text) : Prop :=
  ∃ k ∈ all, lowerAscii word = k.spelling

instance : DecidablePred IsSpelled :=
  fun word => inferInstanceAs (Decidable (∃ k ∈ all, lowerAscii word = k.spelling))

theorem ofWord?_eq_some_iff {word : Text} {k : Keyword} :
    ofWord? word = some k ↔ lowerAscii word = k.spelling := by
  constructor
  · intro h
    have hk := List.find?_some h
    exact (beq_iff_eq.mp hk).symm
  · intro h
    rw [ofWord?, h]
    cases k <;> decide

theorem mem_all (k : Keyword) : k ∈ all := by
  cases k <;> decide

theorem exists_ofWord?_of_isSpelled {word : Text} (h : IsSpelled word) :
    ∃ k, ofWord? word = some k := by
  obtain ⟨k, -, hk⟩ := h
  exact ⟨k, ofWord?_eq_some_iff.mpr hk⟩

theorem ofWord?_eq_none {word : Text} (h : ¬ IsSpelled word) : ofWord? word = none := by
  cases hk : ofWord? word with
  | none => rfl
  | some k => exact absurd ⟨k, mem_all k, ofWord?_eq_some_iff.mp hk⟩ h

theorem find?_eq_some_iff {ws : List Text} {w : Text} :
    ws.find? (¬ IsSpelled ·) = some w ↔
      ∃ before after, ws = before ++ w :: after ∧ (∀ v ∈ before, IsSpelled v) ∧ ¬ IsSpelled w := by
  rw [List.find?_eq_some_iff_append]
  constructor
  · rintro ⟨hw, before, after, hsplit, hbefore⟩
    exact ⟨before, after, hsplit, by simpa using hbefore, by simpa using hw⟩
  · rintro ⟨before, after, hsplit, hbefore, hw⟩
    exact ⟨by simpa using hw, before, after, hsplit, by simpa using hbefore⟩

/-- Both readers at once, by induction on the words. -/
theorem mapM_ofWord (ws : List Text) :
    ws.mapM ofWord =
      match ws.find? (¬ IsSpelled ·) with
      | some w => .error (.unknownKeyword w)
      | none => .ok (ws.filterMap ofWord?) := by
  induction ws with
  | nil => rfl
  | cons w ws ih =>
    rw [List.mapM_cons, ih]
    by_cases hw : IsSpelled w
    · obtain ⟨k, hk⟩ := exists_ofWord?_of_isSpelled hw
      rw [List.find?_cons_of_neg (by simpa using hw), List.filterMap_cons_some hk]
      cases ws.find? (¬ IsSpelled ·) <;> simp [ofWord, hk, bind, Except.bind, pure, Except.pure]
    · rw [List.find?_cons_of_pos (by simpa using hw)]
      simp [ofWord, ofWord?_eq_none hw, bind, Except.bind]

end Keyword

namespace Flag

def on : Flag → Keyword
  | numeric => .numeric
  | caseSensitive => .cs
  | descending => .desc

def off : Flag → Keyword
  | numeric => .alpha
  | caseSensitive => .ncs
  | descending => .asc

/-- The words that concern the flag, in lower case. -/
def spellings (flag : Flag) : List Text :=
  [flag.on.spelling, flag.off.spelling]

end Flag

namespace Keyword

def gives? (flag : Flag) (k : Keyword) : Option Bool :=
  if k = flag.on then some true else if k = flag.off then some false else none

theorem contains_apply (f : SortFlags) (k : Keyword) (flag : Flag) :
    (k.apply f).contains flag.alone = (k.gives? flag).getD (f.contains flag.alone) := by
  cases k <;> cases flag <;> rfl

theorem gives?_of_word (flag : Flag) (word : Text) :
    (ofWord? word).bind (gives? flag) =
      if lowerAscii word ∈ flag.spellings then some (lowerAscii word == flag.on.spelling)
      else none := by
  cases h : ofWord? word with
  | none =>
    have hnot : lowerAscii word ∉ flag.spellings := by
      intro hmem
      have hspelled : ∃ k : Keyword, lowerAscii word = k.spelling := by
        rcases List.mem_pair.mp hmem with hon | hoff
        · exact ⟨flag.on, hon⟩
        · exact ⟨flag.off, hoff⟩
      obtain ⟨k, hk⟩ := hspelled
      rw [ofWord?_eq_some_iff.mpr hk] at h
      cases h
    rw [if_neg hnot, Option.bind_none]
  | some k =>
    rw [ofWord?_eq_some_iff.mp h, Option.bind_some]
    cases k <;> cases flag <;> decide

end Keyword

namespace SortFlags

theorem contains_ofTextLenient (t : Text) (flag : Flag) :
    (ofTextLenient t).contains flag.alone = true ↔
      (((words t).map lowerAscii).filter (· ∈ flag.spellings)).getLast? =
        some flag.on.spelling := by
  have hgiven : ((words t).filterMap Keyword.ofWord?).filterMap (Keyword.gives? flag) =
      (((words t).map lowerAscii).filter (· ∈ flag.spellings)).map (· == flag.on.spelling) := by
    rw [List.filterMap_filterMap, List.filterMap_congr fun w _ => Keyword.gives?_of_word flag w,
      ← List.filterMap_eq_map, List.filterMap_filter, List.filterMap_map]
    simp
  rw [ofTextLenient, ofKeywords, foldl_eq_last_given (fun f => f.contains flag.alone)
    (fun f k => Keyword.contains_apply f k flag), hgiven, contains_empty, List.getLast?_map]
  cases (((words t).map lowerAscii).filter (· ∈ flag.spellings)).getLast? <;> simp

theorem ofText_eq (t : Text) :
    ofText t =
      match (words t).find? (¬ Keyword.IsSpelled ·) with
      | some w => .error (.unknownKeyword w)
      | none => .ok (ofTextLenient t) := by
  rw [ofText, Keyword.mapM_ofWord]
  cases (words t).find? (¬ Keyword.IsSpelled ·) <;> rfl

theorem ofText_eq_ok_iff {t : Text} {f : SortFlags} :
    ofText t = .ok f ↔ (∀ w ∈ words t, Keyword.IsSpelled w) ∧ f = ofTextLenient t := by
  rw [ofText_eq]
  cases h : (words t).find? (¬ Keyword.IsSpelled ·) with
  | none =>
    have hall : ∀ w ∈ words t, Keyword.IsSpelled w := by simpa using List.find?_eq_none.mp h
    exact ⟨fun hf => ⟨hall, (Except.ok.inj hf).symm⟩, fun hf => congrArg Except.ok hf.2.symm⟩
  | some w =>
    obtain ⟨before, after, hsplit, -, hw⟩ := Keyword.find?_eq_some_iff.mp h
    have hmem : w ∈ words t := by simp [hsplit]
    simpa using fun hall => absurd (hall w hmem) hw

theorem ofText_eq_error_iff {t : Text} {e : FlagsError} :
    ofText t = .error e ↔ ∃ before w after, words t = before ++ w :: after ∧
      (∀ v ∈ before, Keyword.IsSpelled v) ∧ ¬ Keyword.IsSpelled w ∧ e = .unknownKeyword w := by
  rw [ofText_eq]
  constructor
  · intro h
    cases hfind : (words t).find? (¬ Keyword.IsSpelled ·) with
    | none =>
      rw [hfind] at h
      cases h
    | some w =>
      rw [hfind] at h
      obtain ⟨before, after, hsplit, hbefore, hw⟩ := Keyword.find?_eq_some_iff.mp hfind
      exact ⟨before, w, after, hsplit, hbefore, hw, (Except.error.inj h).symm⟩
  · rintro ⟨before, w, after, hsplit, hbefore, hw, rfl⟩
    rw [Keyword.find?_eq_some_iff.mpr ⟨before, after, hsplit, hbefore, hw⟩]

/-- The words that are left may be separated in any way. -/
theorem ofText_of_isWords_spelled {t u : Text}
    (h : IsWords u ((words t).filter (Keyword.IsSpelled ·))) : ofText u = .ok (ofTextLenient t) := by
  have hspelled : ∀ w ∈ words u, Keyword.IsSpelled w := by
    rw [← h.eq_words]
    intro w hw
    simpa using (List.mem_filter.mp hw).2
  have hkeywords : (words u).filterMap Keyword.ofWord? = (words t).filterMap Keyword.ofWord? := by
    rw [← h.eq_words, List.filterMap_filter]
    refine List.filterMap_congr fun w _ => ?_
    by_cases hw : Keyword.IsSpelled w
    · simp [hw]
    · simp [hw, Keyword.ofWord?_eq_none hw]
  exact ofText_eq_ok_iff.mpr ⟨hspelled, congrArg ofKeywords hkeywords.symm⟩

/-- The two readings of a text by its words. Each accepts exactly what it should, the lenient one
is the strict one without the unknown words, and only the last word about a flag matters to it. -/
theorem ofText_ofTextLenient_by_words (t : Text) :
    (∀ ws, IsWords t ws ↔ ws = words t) ∧
    (∀ f, ofText t = .ok f ↔ (∀ w ∈ words t, Keyword.IsSpelled w) ∧ f = ofTextLenient t) ∧
    (∀ e, ofText t = .error e ↔ ∃ before w after, words t = before ++ w :: after ∧
      (∀ v ∈ before, Keyword.IsSpelled v) ∧ ¬ Keyword.IsSpelled w ∧ e = .unknownKeyword w) ∧
    (∀ u, IsWords u ((words t).filter (Keyword.IsSpelled ·)) → ofText u = .ok (ofTextLenient t)) ∧
    ofText ([' '].intercalate ((words t).filter (Keyword.IsSpelled ·))) = .ok (ofTextLenient t) ∧
    (∀ flag : Flag, (ofTextLenient t).contains flag.alone = true ↔
      (((words t).map lowerAscii).filter (· ∈ flag.spellings)).getLast? =
        some flag.on.spelling) := by
  refine ⟨fun ws => isWords_iff, fun f => ofText_eq_ok_iff, fun e => ofText_eq_error_iff,
    fun u => ofText_of_isWords_spelled, ?_, contains_ofTextLenient t⟩
  have hwords : ∀ w ∈ (words t).filter (Keyword.IsSpelled ·), IsWord w := fun w hw =>
    (isWords_iff.mpr rfl).isWord w (List.mem_filter.mp hw).1
  exact ofText_of_isWords_spelled (isWords_iff.mpr (words_intercalate hwords).symm)

/-- Two unknown words fall away and a wide space gives way to others. -/
theorem ofText_ofTextLenient_asc_desc :
    IsWords "\nasc\tCS  DESC".toList
      ((words "asc upward CS\u3000DESC sideways".toList).filter (Keyword.IsSpelled ·)) ∧
    ofText "\nasc\tCS  DESC".toList =
      .ok (ofTextLenient "asc upward CS\u3000DESC sideways".toList) := by
  have hwords : IsWords "\nasc\tCS  DESC".toList
      ((words "asc upward CS\u3000DESC sideways".toList).filter (Keyword.IsSpelled ·)) :=
    isWords_iff.mpr (by decide +kernel)
  exact ⟨hwords, (ofText_ofTextLenient_by_words _).2.2.2.1 _ hwords⟩

end SortFlags

end Wikitext
