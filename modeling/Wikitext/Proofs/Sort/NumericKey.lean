import Wikitext.Proofs.Sort.PairOrder

/-! Sorting by numeric keys. Pairs whose keys are numbers and pairs whose keys are other texts are
sorted apart: no other text stands before a number or ties with one, and among themselves the other
texts are ordered as they are with regard to case. -/

namespace Wikitext

section Parts

variable {α : Type} {cmp : α → α → Ordering} [Std.OrientedCmp cmp] {p : α → Bool} {l m n : List α}

theorem part_eq_of_tie (hlt : ∀ a b, p a = true → p b = false → cmp a b = .lt) {a b : α}
    (htie : cmp b a = .eq) : p b = p a := by
  cases hb : p b with
  | true =>
    cases ha : p a with
    | true => rfl
    | false => exact absurd ((hlt b a hb ha).symm.trans htie) (by decide)
  | false =>
    cases ha : p a with
    | true => exact absurd ((hlt a b ha hb).symm.trans (Std.OrientedCmp.eq_symm htie)) (by decide)
    | false => rfl

/-- A class of ties lies in one part as a whole, so it can be collected part by part. -/
theorem filter_tie_append (hlt : ∀ a b, p a = true → p b = false → cmp a b = .lt) (a : α) :
    (l.filter p).filter (fun b => cmp b a = .eq) ++
        (l.filter fun b => !p b).filter (fun b => cmp b a = .eq) =
      l.filter fun b => cmp b a = .eq := by
  have hpart : ∀ f : Bool → Bool, (fun b => decide (cmp b a = .eq) && f (p b)) =
      fun b => decide (cmp b a = .eq) && f (p a) := by
    intro f
    funext b
    by_cases htie : cmp b a = .eq
    · rw [part_eq_of_tie hlt htie]
    · simp [htie]
  have hinside : (fun b => decide (cmp b a = .eq) && p b) =
      fun b => decide (cmp b a = .eq) && p a := hpart id
  rw [List.filter_filter, List.filter_filter, hinside, hpart not]
  cases p a with
  | true => simp
  | false => simp

/-- Where one part stands before the other, both may be sorted by themselves. -/
theorem IsStableSort.append_of_lt (hlt : ∀ a b, p a = true → p b = false → cmp a b = .lt)
    (hm : IsStableSort cmp (l.filter p) m) (hn : IsStableSort cmp (l.filter fun a => !p a) n) :
    IsStableSort cmp l (m ++ n) where
  perm := (hm.perm.append hn.perm).trans (List.filter_append_perm p l)
  ordered := by
    refine List.pairwise_append.mpr ⟨hm.ordered, hn.ordered, fun a ha b hb => ?_⟩
    have hpa : p a = true := (List.mem_filter.mp (hm.perm.subset ha)).2
    have hpb : p b = false := by simpa using (List.mem_filter.mp (hn.perm.subset hb)).2
    simp [hlt a b hpa hpb]
  stable a := by
    rw [List.filter_append, hm.stable a, hn.stable a, filter_tie_append hlt a]

end Parts

/-- Whether the key of a pair is read as a number. -/
def hasNumericKey (p : Pair) : Bool :=
  (Number.ofText? p.1).isSome

theorem ofText?_eq_none_of_hasNumericKey {p : Pair} (h : hasNumericKey p = false) :
    Number.ofText? p.1 = none :=
  Option.isNone_iff_eq_none.mp (Option.isSome_eq_false_iff.mp h)

namespace PairOrder

variable {o : PairOrder} {p q : Pair}

theorem compare_of_key_lt (h : o.key.compare p.1 q.1 = .lt) : o.compare p q = .lt := by
  rw [compare, h, Ordering.lt_then]

theorem compare_number_other (hkey : o.key = ⟨.numeric, .ascending⟩)
    (hp : hasNumericKey p = true) (hq : hasNumericKey q = false) : o.compare p q = .lt := by
  obtain ⟨m, hm⟩ := Option.isSome_iff_exists.mp hp
  apply compare_of_key_lt
  rw [hkey]
  exact compareNumeric_of_number_left hm (ofText?_eq_none_of_hasNumericKey hq)

theorem compare_other_number (hkey : o.key = ⟨.numeric, .descending⟩)
    (hp : hasNumericKey p = false) (hq : hasNumericKey q = true) : o.compare p q = .lt := by
  obtain ⟨n, hn⟩ := Option.isSome_iff_exists.mp hq
  apply compare_of_key_lt
  rw [hkey, Comparison.compare_descending]
  exact compareNumeric_of_number_left hn (ofText?_eq_none_of_hasNumericKey hp)

theorem sort_congr {o' : PairOrder} {pairs : List Pair}
    (h : ∀ p ∈ pairs, ∀ q ∈ pairs, o.compare p q = o'.compare p q) : o.sort pairs = o'.sort pairs := by
  have hmap := List.map_mergeSort (f := id) (s := fun p q => (o'.compare p q).isLE)
    fun p hp q hq => congrArg Ordering.isLE (h p hp q hq)
  rwa [List.map_id, List.map_id] at hmap

variable (d : Direction) (value : Option Comparison) (pairs : List Pair)

/-- Among keys that are no numbers the numeric strategy is the case-sensitive one. -/
theorem sort_others :
    (PairOrder.mk ⟨.numeric, d⟩ value).sort (pairs.filter fun p => !hasNumericKey p) =
      (PairOrder.mk ⟨.caseSensitive, d⟩ value).sort (pairs.filter fun p => !hasNumericKey p) := by
  have hother : ∀ p ∈ pairs.filter (fun p => !hasNumericKey p), Number.ofText? p.1 = none :=
    fun p hp => ofText?_eq_none_of_hasNumericKey (by simpa using (List.mem_filter.mp hp).2)
  apply sort_congr
  intro p hp q hq
  have hkey : (Comparison.mk .numeric d).compare p.1 q.1 =
      (Comparison.mk .caseSensitive d).compare p.1 q.1 :=
    congrArg d.apply (compareNumeric_of_others (hother p hp) (hother q hq))
  exact congrArg (Ordering.then · _) hkey

theorem sort_numeric_ascending :
    (PairOrder.mk ⟨.numeric, .ascending⟩ value).sort pairs =
      (PairOrder.mk ⟨.numeric, .ascending⟩ value).sort (pairs.filter hasNumericKey) ++
        (PairOrder.mk ⟨.caseSensitive, .ascending⟩ value).sort
          (pairs.filter fun p => !hasNumericKey p) := by
  rw [← sort_others]
  exact (isStableSort_sort _ pairs).unique (.append_of_lt (fun _ _ => compare_number_other rfl)
    (isStableSort_sort _ _) (isStableSort_sort _ _))

theorem sort_numeric_descending :
    (PairOrder.mk ⟨.numeric, .descending⟩ value).sort pairs =
      (PairOrder.mk ⟨.caseSensitive, .descending⟩ value).sort
          (pairs.filter fun p => !hasNumericKey p) ++
        (PairOrder.mk ⟨.numeric, .descending⟩ value).sort (pairs.filter hasNumericKey) := by
  have hnumbers : pairs.filter hasNumericKey = pairs.filter fun p => !!hasNumericKey p := by
    simp only [Bool.not_not]
  rw [← sort_others, hnumbers]
  refine (isStableSort_sort _ pairs).unique (.append_of_lt (fun p q hp hq => ?_)
    (isStableSort_sort _ _) (isStableSort_sort _ _))
  exact compare_other_number rfl (by simpa using hp) (by simpa using hq)

/-- A sort by numeric keys is one sort of the numbers beside one of all other keys, which stand
behind the numbers, or before them if the direction is descending. Case does not matter to the
numeric strategy on either side of a pair. -/
theorem sortPairs_numeric_by_parts (pairs : List Pair) (value : Option SortFlags)
    (caseSensitive : Bool) :
    sortPairs pairs ⟨true, caseSensitive, false⟩ value =
      sortPairs (pairs.filter hasNumericKey) ⟨true, caseSensitive, false⟩ value ++
        sortPairs (pairs.filter fun p => !hasNumericKey p) ⟨false, true, false⟩ value ∧
    sortPairs pairs ⟨true, caseSensitive, true⟩ value =
      sortPairs (pairs.filter fun p => !hasNumericKey p) ⟨false, true, true⟩ value ++
        sortPairs (pairs.filter hasNumericKey) ⟨true, caseSensitive, true⟩ value ∧
    (∀ descending, sortPairs pairs ⟨true, caseSensitive, descending⟩ value =
      sortPairs pairs ⟨true, !caseSensitive, descending⟩ value) ∧
    ∀ key descending, sortPairs pairs key (some ⟨true, caseSensitive, descending⟩) =
      sortPairs pairs key (some ⟨true, !caseSensitive, descending⟩) :=
  ⟨sort_numeric_ascending _ pairs, sort_numeric_descending _ pairs, fun _ => rfl, fun _ _ => rfl⟩

end PairOrder

end Wikitext
