import Wikitext.Proofs.Sort.PairOrder

/-! Sorting in the other direction. Both sides of a pair are compared the other way round and ties
stay ties, so the sorted list is the mirror of the one that the mirrored pairs are sorted to. -/

namespace Wikitext

theorem IsStableSort.reverse {α : Type} {cmp : α → α → Ordering} [Std.OrientedCmp cmp]
    {input output : List α} (h : IsStableSort cmp input output) :
    IsStableSort (fun a b => cmp b a) input.reverse output.reverse where
  perm := output.reverse_perm.trans (h.perm.trans input.reverse_perm.symm)
  ordered := List.pairwise_reverse.mpr h.ordered
  stable a := by
    have htie : (fun b => decide (cmp a b = .eq)) = fun b => decide (cmp b a = .eq) := by
      funext b
      exact decide_eq_decide.mpr Std.OrientedCmp.eq_comm
    rw [htie, List.filter_reverse, List.filter_reverse, h.stable a]

namespace SortFlags

/-- The same strategy in the other direction. -/
def turned (f : SortFlags) : SortFlags :=
  { f with descending := !f.descending }

theorem compare_turned (f : SortFlags) (s t : Text) :
    f.turned.comparison.compare s t = f.comparison.compare t s := by
  obtain ⟨numeric, caseSensitive, descending⟩ := f
  cases descending with
  | false => exact Comparison.compare_descending _ s t
  | true => exact (Comparison.compare_descending _ t s).symm

end SortFlags

namespace PairOrder

theorem compare_turned (key : SortFlags) (value : Option SortFlags) (p q : Pair) :
    (ofFlags key.turned (value.map SortFlags.turned)).compare p q =
      (ofFlags key value).compare q p := by
  have hkey : (ofFlags key.turned (value.map SortFlags.turned)).key.compare p.1 q.1 =
      (ofFlags key value).key.compare q.1 p.1 := key.compare_turned p.1 q.1
  have hvalue : (ofFlags key.turned (value.map SortFlags.turned)).compareValues p.2 q.2 =
      (ofFlags key value).compareValues q.2 p.2 := by
    cases value with
    | none => rfl
    | some value => exact value.compare_turned p.2 q.2
  rw [compare, compare, hkey, hvalue]

/-- To sort in the other direction is to sort the mirrored list and to mirror the result; pairs that
tie in one direction tie in the other, and stand there as they were given. -/
theorem sort_turned_eq_mirror (pairs : List Pair) (key : SortFlags) (value : Option SortFlags) :
    sortPairs pairs key.turned (value.map SortFlags.turned) =
      (sortPairs pairs.reverse key value).reverse ∧
    ∀ p, (sortPairs pairs key.turned (value.map SortFlags.turned)).filter
        (fun q => (ofFlags key value).compare q p = .eq) =
      pairs.filter fun q => (ofFlags key value).compare q p = .eq := by
  have hcompare : (ofFlags key.turned (value.map SortFlags.turned)).compare =
      fun p q => (ofFlags key value).compare q p :=
    funext fun p => funext fun q => compare_turned key value p q
  have hmirror := (isStableSort_sort (ofFlags key value) pairs.reverse).reverse
  rw [List.reverse_reverse, ← hcompare] at hmirror
  have hsort : sortPairs pairs key.turned (value.map SortFlags.turned) =
      (sortPairs pairs.reverse key value).reverse :=
    (isStableSort_sort _ pairs).unique hmirror
  refine ⟨hsort, fun p => ?_⟩
  have hties := (isStableSort_sort (ofFlags key value) pairs.reverse).stable p
  rw [hsort, List.filter_reverse, sortPairs, hties, List.filter_reverse, List.reverse_reverse]

end PairOrder

end Wikitext
