import Mathlib.Data.Set.Operations
import Mathlib.Order.Nat
import Wikitext.Function.Switch
import Wikitext.Proofs.Text.Trim

/-! What a switch chooses, by the places of its cases: the first case with the label of the key, and
from there on the first case with a value. What stands after that case has no influence. -/

namespace Wikitext

section FirstPlace

variable {α β : Type} {l : List α} {j m : ℕ}

theorem dropWhile_eq_drop_of_isLeast {q : α → Bool}
    (h : IsLeast {i | ∃ a, l[i]? = some a ∧ q a = false} j) : l.dropWhile q = l.drop j := by
  obtain ⟨a, ha, hq⟩ := h.1
  obtain ⟨hj, rfl⟩ := List.getElem?_eq_some_iff.mp ha
  have hfirst : l.findIdx (fun a => !q a) = j := by
    refine (List.findIdx_eq hj).mpr ⟨by simp [hq], fun k hk => ?_⟩
    by_contra hne
    have hmem : k ∈ {i | ∃ a, l[i]? = some a ∧ q a = false} :=
      ⟨l[k], List.getElem?_eq_getElem _, by simpa using hne⟩
    exact absurd (h.2 hmem) (Nat.not_le.mpr hk)
  rw [List.dropWhile_eq_drop_findIdx_not, hfirst]

theorem findSome?_drop_of_isLeast {f : α → Option β} {a : α}
    (h : IsLeast {i | j ≤ i ∧ ∃ a, l[i]? = some a ∧ (f a).isSome = true} m) (ha : l[m]? = some a) :
    (l.drop j).findSome? f = f a := by
  obtain ⟨hjm, b, hb, hsome⟩ := h.1
  obtain rfl : b = a := Option.some.inj (hb.symm.trans ha)
  obtain ⟨hm, rfl⟩ := List.getElem?_eq_some_iff.mp ha
  have hsplit : l.drop j = (l.drop j).take (m - j) ++ l[m] :: l.drop (m + 1) := by
    have hrest : (l.drop j).drop (m - j) = l[m] :: l.drop (m + 1) := by
      rw [List.drop_drop, Nat.add_sub_cancel' hjm, List.drop_eq_getElem_cons hm]
    rw [← hrest, List.take_append_drop]
  have hbefore : ((l.drop j).take (m - j)).findSome? f = none := by
    rw [List.findSome?_eq_none_iff]
    intro x hx
    obtain ⟨i, hi⟩ := List.mem_iff_getElem?.mp hx
    rw [List.getElem?_take, Option.ite_none_right_eq_some, List.getElem?_drop] at hi
    obtain ⟨hlt, hi⟩ := hi
    by_contra hne
    have hmem : j + i ∈ {i | j ≤ i ∧ ∃ a, l[i]? = some a ∧ (f a).isSome = true} :=
      ⟨Nat.le_add_right j i, x, hi, Option.isSome_iff_ne_none.mpr hne⟩
    have := h.2 hmem
    omega
  obtain ⟨v, hv⟩ := Option.isSome_iff_exists.mp hsome
  rw [hsplit, List.findSome?_append, hbefore, Option.none_or, List.findSome?_cons, hv]

end FirstPlace

/-- A case by the first equals sign of its trimmed text. -/
inductive CaseParts (t : Text) : Text → Option Text → Prop where
  | valued {label value : Text} (h : trimBlanks t = label ++ '=' :: value) (hlabel : '=' ∉ label) :
    CaseParts t label (some value)
  | bare (h : '=' ∉ trimBlanks t) : CaseParts t (trimBlanks t) none

theorem CaseParts.ofText_eq {t label : Text} {value? : Option Text} (h : CaseParts t label value?) :
    Case.ofText t = ⟨unescape label, value?⟩ := by
  cases h with
  | valued h hlabel => simp only [Case.ofText, h, cutAt_append_cons hlabel]
  | bare h => simp only [Case.ofText, cutAt_eq_none_iff.mpr h]

theorem exists_caseParts (t : Text) : ∃ label value?, CaseParts t label value? := by
  by_cases h : '=' ∈ trimBlanks t
  · obtain ⟨label, value, heq, hlabel⟩ := List.eq_append_cons_of_mem h
    exact ⟨label, some value, .valued heq hlabel⟩
  · exact ⟨trimBlanks t, none, .bare h⟩

def HasLabel (key : Text) (cases : List Text) (i : ℕ) : Prop :=
  ∃ t label value?, cases[i]? = some t ∧ CaseParts t label value? ∧ unescape label = key

def HasValue (cases : List Text) (i : ℕ) (value : Text) : Prop :=
  ∃ t label, cases[i]? = some t ∧ CaseParts t label (some value)

/-- Case `j` is the first with the label of the key, and case `m` the first from there on that has
a value. -/
structure IsMatch (key : Text) (cases : List Text) (j m : ℕ) (value : Text) : Prop where
  labelled : IsLeast {i | HasLabel key cases i} j
  valued : IsLeast {i | j ≤ i ∧ ∃ v, HasValue cases i v} m
  value : HasValue cases m value

section Match

variable {key value : Text} {cases : List Text} {j m : ℕ}

theorem hasLabel_iff {i : ℕ} : HasLabel key cases i ↔
    ∃ c, (cases.map Case.ofText)[i]? = some c ∧ decide (c.label ≠ key) = false := by
  simp only [List.getElem?_map, Option.map_eq_some_iff]
  constructor
  · rintro ⟨t, label, value?, ht, hparts, hlabel⟩
    exact ⟨_, ⟨t, ht, rfl⟩, by simp [hparts.ofText_eq, hlabel]⟩
  · rintro ⟨_, ⟨t, ht, rfl⟩, hlabel⟩
    obtain ⟨label, value?, hparts⟩ := exists_caseParts t
    exact ⟨t, label, value?, ht, hparts, by simpa [hparts.ofText_eq] using hlabel⟩

theorem exists_hasValue_iff {i : ℕ} : (∃ v, HasValue cases i v) ↔
    ∃ c, (cases.map Case.ofText)[i]? = some c ∧ c.value?.isSome = true := by
  simp only [List.getElem?_map, Option.map_eq_some_iff]
  constructor
  · rintro ⟨v, t, label, ht, hparts⟩
    exact ⟨_, ⟨t, ht, rfl⟩, by simp [hparts.ofText_eq]⟩
  · rintro ⟨_, ⟨t, ht, rfl⟩, hsome⟩
    obtain ⟨label, value?, hparts⟩ := exists_caseParts t
    rw [hparts.ofText_eq] at hsome
    obtain ⟨v, rfl⟩ := Option.isSome_iff_exists.mp hsome
    exact ⟨v, t, label, ht, hparts⟩

theorem dropWhile_eq_drop_of_hasLabel (h : IsLeast {i | HasLabel key cases i} j) :
    (cases.map Case.ofText).dropWhile (fun c => decide (c.label ≠ key)) =
      (cases.map Case.ofText).drop j := by
  simp only [hasLabel_iff] at h
  exact dropWhile_eq_drop_of_isLeast h

theorem IsMatch.select_eq (h : IsMatch key cases j m value) :
    Case.select key (cases.map Case.ofText) = some value := by
  have hvalued := h.valued
  simp only [exists_hasValue_iff] at hvalued
  obtain ⟨t, label, ht, hparts⟩ := h.value
  have hm : (cases.map Case.ofText)[m]? = some ⟨unescape label, some value⟩ := by
    rw [List.getElem?_map, ht, Option.map_some, hparts.ofText_eq]
  rw [Case.select, dropWhile_eq_drop_of_hasLabel h.labelled, findSome?_drop_of_isLeast hvalued hm]

theorem exists_hasLabel_of_select (h : Case.select key (cases.map Case.ofText) = some value) :
    ∃ i, HasLabel key cases i := by
  by_contra hnone
  have hdrop : (cases.map Case.ofText).dropWhile (fun c => decide (c.label ≠ key)) = [] := by
    rw [List.dropWhile_eq_nil_iff]
    intro c hc
    obtain ⟨i, hi⟩ := List.mem_iff_getElem?.mp hc
    by_contra hlabel
    exact hnone ⟨i, hasLabel_iff.mpr ⟨c, hi, Bool.eq_false_iff.mpr hlabel⟩⟩
  rw [Case.select, hdrop] at h
  cases h

/-- A selected value stands in a case after one with the label, so both least places exist. -/
theorem exists_isMatch_of_select (h : Case.select key (cases.map Case.ofText) = some value) :
    ∃ j m value, IsMatch key cases j m value := by
  classical
  have hlabelled := Nat.isLeast_find (exists_hasLabel_of_select h)
  generalize Nat.find (exists_hasLabel_of_select h) = j at hlabelled
  have hvalued : ∃ i, j ≤ i ∧ ∃ v, HasValue cases i v := by
    rw [Case.select, dropWhile_eq_drop_of_hasLabel hlabelled] at h
    obtain ⟨c, hc, hvalue⟩ := List.exists_of_findSome?_eq_some h
    obtain ⟨i, hi⟩ := List.mem_iff_getElem?.mp hc
    rw [List.getElem?_drop] at hi
    exact ⟨j + i, Nat.le_add_right j i, exists_hasValue_iff.mpr ⟨c, hi, by simp [hvalue]⟩⟩
  have hleast := Nat.isLeast_find hvalued
  obtain ⟨v, hv⟩ := hleast.1.2
  exact ⟨j, Nat.find hvalued, v, hlabelled, hleast, hv⟩

/-- Only the cases up to the chosen one are looked at. -/
theorem IsMatch.of_getElem?_eq {others : List Text} (h : IsMatch key cases j m value)
    (heq : ∀ i ≤ m, others[i]? = cases[i]?) : IsMatch key others j m value := by
  have hjm : j ≤ m := h.valued.1.1
  have hlabel : ∀ i ≤ m, (HasLabel key others i ↔ HasLabel key cases i) := by
    intro i hi
    rw [HasLabel, HasLabel, heq i hi]
  have hvalue : ∀ i ≤ m, ∀ v, (HasValue others i v ↔ HasValue cases i v) := by
    intro i hi v
    rw [HasValue, HasValue, heq i hi]
  refine ⟨⟨(hlabel j hjm).mpr h.labelled.1, fun i hi => ?_⟩,
    ⟨⟨hjm, value, (hvalue m le_rfl value).mpr h.value⟩, ?_⟩, (hvalue m le_rfl value).mpr h.value⟩
  · by_cases him : i ≤ m
    · exact h.labelled.2 ((hlabel i him).mp hi)
    · omega
  · rintro i ⟨hji, v, hv⟩
    by_cases him : i ≤ m
    · exact h.valued.2 ⟨hji, v, (hvalue i him v).mp hv⟩
    · omega

theorem CaseParts.mem_of_valued {t label value : Text} (h : CaseParts t label (some value)) :
    '=' ∈ t := by
  cases h with
  | valued h hlabel =>
    have hmem : '=' ∈ trimBlanks t := by simp [h]
    exact trimWhere_subset isBlank t hmem

end Match

theorem splitDefault_eq {texts : List Text} (h : texts ≠ []) : splitDefault texts =
    if '=' ∈ texts.getLastD [] then (texts, []) else (texts.dropLast, texts.getLastD []) := by
  obtain ⟨before, last, rfl⟩ := (List.eq_nil_or_concat' texts).resolve_left h
  simp [splitDefault]

/-- The default has no equals sign, so whatever stands up to a text with one is a case. -/
theorem getElem?_splitDefault {texts : List Text} {t : Text} {m i : ℕ} (ht : texts[m]? = some t)
    (heq : '=' ∈ t) (hi : i ≤ m) : (splitDefault texts).1[i]? = texts[i]? := by
  obtain ⟨hm, rfl⟩ := List.getElem?_eq_some_iff.mp ht
  have hne : texts ≠ [] := by
    rintro rfl
    exact absurd hm (Nat.not_lt_zero m)
  rw [splitDefault_eq hne]
  split_ifs with hlast
  · rfl
  · have hnotlast : m ≠ texts.length - 1 := by
      rintro rfl
      rw [List.getLastD_eq_getLast?, List.getLast?_eq_getElem?, ht] at hlast
      exact hlast heq
    rw [List.getElem?_dropLast, if_pos (by omega)]

theorem getElem?_of_getElem?_splitDefault {texts : List Text} {t : Text} {m : ℕ}
    (h : (splitDefault texts).1[m]? = some t) : texts[m]? = some t := by
  by_cases hne : texts = []
  · subst hne
    cases h
  · rw [splitDefault_eq hne] at h
    split_ifs at h with hlast
    · exact h
    · rw [List.getElem?_dropLast, Option.ite_none_right_eq_some] at h
      exact h.2

theorem result_switch (h : Host) (raw : Text) {args : List Text} (hne : args ≠ []) :
    (switch (raw :: args)).result h =
      unescape (trimBlanks ((Case.select (unescape (trimBlanks (h.expand .full raw)))
        ((splitDefault (args.map (h.expand .full))).1.map Case.ofText)).getD
          (splitDefault (args.map (h.expand .full))).2)) := by
  cases args with
  | nil => exact absurd rfl hne
  | cons next rest =>
    simp only [switch, Script.result_bind, Script.result_expandFull, Script.result_mapM_expandFull]
    cases Case.select _ _ <;> rfl

theorem switch_of_length_lt {args : List Text} (hlt : args.length < 2) : switch args = pure [] := by
  match args, hlt with
  | [], _ => rfl
  | [_], _ => rfl

theorem IsMatch.result_eq {h : Host} {raw : Text} {args : List Text} {j m : ℕ} {value : Text}
    (hmatch : IsMatch (unescape (trimBlanks (h.expand .full raw)))
      (splitDefault (args.map (h.expand .full))).1 j m value) :
    (switch (raw :: args)).result h = unescape (trimBlanks value) := by
  have hne : args ≠ [] := by
    rintro rfl
    obtain ⟨t, label, ht, -⟩ := hmatch.value
    cases ht
  rw [result_switch h raw hne, hmatch.select_eq, Option.getD_some]

/-- Texts that agree up to the chosen case have the same cases up to it, whichever of them ends in a
default. -/
theorem IsMatch.of_take_eq {key value : Text} {texts others : List Text} {j m : ℕ}
    (hmatch : IsMatch key (splitDefault texts).1 j m value)
    (htake : others.take (m + 1) = texts.take (m + 1)) :
    IsMatch key (splitDefault others).1 j m value := by
  obtain ⟨t, label, ht, hparts⟩ := hmatch.value
  have htexts := getElem?_of_getElem?_splitDefault ht
  have hagree : ∀ i ≤ m, others[i]? = texts[i]? := by
    intro i hi
    have hi' := congrArg (·[i]?) htake
    simpa [List.getElem?_take, Nat.lt_succ_of_le hi] using hi'
  have hothers := (hagree m le_rfl).trans htexts
  refine hmatch.of_getElem?_eq fun i hi => ?_
  rw [getElem?_splitDefault hothers hparts.mem_of_valued hi, hagree i hi,
    getElem?_splitDefault htexts hparts.mem_of_valued hi]

/-- The text of a switch in full. It is the value of the case at the second least place, without
regard to anything that stands behind it, or else the default. -/
theorem switch_by_least_places (h : Host) :
    (∀ args : List Text, args.length < 2 →
      (switch args).result h = [] ∧ (switch args).events h = []) ∧
    ∀ (raw : Text) (args : List Text), args ≠ [] →
      let key := unescape (trimBlanks (h.expand .full raw))
      let texts := args.map (h.expand .full)
      let last := texts.getLastD []
      let cases := if '=' ∈ last then texts else texts.dropLast
      let fallback := if '=' ∈ last then [] else last
      (∀ j m value, IsMatch key cases j m value →
        (switch (raw :: args)).result h = unescape (trimBlanks value) ∧
        ∀ others : List Text, others.take (m + 1) = args.take (m + 1) →
          (switch (raw :: others)).result h = (switch (raw :: args)).result h) ∧
      ((¬ ∃ j m value, IsMatch key cases j m value) →
        (switch (raw :: args)).result h = unescape (trimBlanks fallback)) := by
  refine ⟨fun args hlt => ?_, ?_⟩
  · rw [switch_of_length_lt hlt]
    exact ⟨rfl, rfl⟩
  · intro raw args hne key texts last cases fallback
    have hsplit : splitDefault texts = (cases, fallback) := by
      rw [splitDefault_eq (by simpa [texts] using hne)]
      change (if '=' ∈ last then (texts, []) else (texts.dropLast, last)) = (cases, fallback)
      by_cases hlast : '=' ∈ last
      · simp only [cases, fallback, hlast, if_true]
      · simp only [cases, fallback, hlast, if_false]
    have hcases : (splitDefault texts).1 = cases := congrArg Prod.fst hsplit
    refine ⟨fun j m value hmatch => ?_, fun hnone => ?_⟩
    · rw [← hcases] at hmatch
      have hresult := hmatch.result_eq
      refine ⟨hresult, fun others htake => ?_⟩
      have htexts : (others.map (h.expand .full)).take (m + 1) = texts.take (m + 1) := by
        rw [← List.map_take, htake, List.map_take]
      rw [(hmatch.of_take_eq htexts).result_eq, hresult]
    · have hselect : Case.select key (cases.map Case.ofText) = none := by
        cases hs : Case.select key (cases.map Case.ofText) with
        | none => rfl
        | some value => exact absurd (exists_isMatch_of_select hs) hnone
      rw [result_switch h raw hne, hsplit, hselect, Option.getD_none]

/-- The label falls through to the next value; without the label the default remains. -/
theorem switch_by_least_places_fall_through :
    IsMatch ['b'] [['b'], ['c', '=', ' ', '2']] 0 1 [' ', '2'] ∧
    (switch [['b'], ['b'], ['c', '=', ' ', '2'], ['b', '=', '3'], ['x', '=']]).result .verbatim =
      (switch [['b'], ['b'], ['c', '=', ' ', '2'], ['d']]).result .verbatim ∧
    (switch [['b'], ['b'], ['c', '=', ' ', '2'], ['d']]).result .verbatim = ['2'] ∧
    (¬ ∃ j m value, IsMatch ['z'] [['a', '=', '1']] j m value) ∧
    (switch [['z'], ['a', '=', '1'], ['d']]).result .verbatim = ['d'] ∧
    (switch [['z']]).result .verbatim = [] := by
  have hmatch : IsMatch ['b'] [['b'], ['c', '=', ' ', '2']] 0 1 [' ', '2'] := by
    have hvalued : CaseParts ['c', '=', ' ', '2'] ['c'] (some [' ', '2']) :=
      .valued (by decide) (by decide)
    refine ⟨⟨⟨['b'], ['b'], none, rfl, .bare (by decide), by decide⟩, fun i _ => Nat.zero_le i⟩,
      ⟨⟨Nat.zero_le 1, _, _, _, rfl, hvalued⟩, ?_⟩, _, _, rfl, hvalued⟩
    rintro i ⟨-, value, t, label, ht, hparts⟩
    cases i with
    | zero =>
      cases ht
      exact absurd hparts.mem_of_valued (by decide)
    | succ i => exact Nat.succ_pos i
  have hnone : ¬ ∃ j m value, IsMatch ['z'] [['a', '=', '1']] j m value := by
    rintro ⟨j, m, value, hz⟩
    obtain ⟨t, label, value?, ht, hparts, hlabel⟩ := hz.labelled.1
    cases j with
    | zero =>
      cases ht
      have ha : ['a'] = unescape label := congrArg Case.label hparts.ofText_eq
      rw [hlabel] at ha
      exact absurd ha (by decide)
    | succ j => cases ht
  obtain ⟨hshort, hlong⟩ := switch_by_least_places .verbatim
  obtain ⟨hvalue, hothers⟩ :=
    (hlong ['b'] [['b'], ['c', '=', ' ', '2'], ['d']] (by simp)).1 0 1 _ hmatch
  refine ⟨hmatch, hothers _ (by decide), hvalue, hnone, ?_, (hshort [['z']] (by decide)).1⟩
  exact (hlong ['z'] [['a', '=', '1'], ['d']] (by simp)).2 hnone

end Wikitext
