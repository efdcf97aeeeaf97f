import Wikitext.Proofs.Sort.Collation
import Wikitext.Proofs.Sort.StableSort
import Wikitext.Sort.PairOrder

/-! Every order of pairs is a total preorder, so a list of pairs has exactly one stable sort, and
sorting finds it. -/

namespace Wikitext

theorem transCmp_on {α β : Type} {cmp : β → β → Ordering} [Std.TransCmp cmp] (f : α → β) :
    Std.TransCmp fun a b => cmp (f a) (f b) where
  eq_swap := Std.OrientedCmp.eq_swap
  isLE_trans := Std.TransCmp.isLE_trans

instance (s : Strategy) : Std.TransCmp s.compare := by
  cases s with
  | numeric => exact inferInstanceAs (Std.TransCmp compareNumeric)
  | caseSensitive => exact inferInstanceAs (Std.TransCmp compareBytes)
  | caseInsensitive => exact inferInstanceAs (Std.TransCmp compareIgnoringCase)

theorem Comparison.compare_descending (s : Strategy) (t u : Text) :
    (Comparison.mk s .descending).compare t u = s.compare u t :=
  Std.OrientedCmp.eq_swap.symm

instance (c : Comparison) : Std.TransCmp c.compare := by
  obtain ⟨s, d⟩ := c
  cases d with
  | ascending => exact inferInstanceAs (Std.TransCmp s.compare)
  | descending =>
    have h : (Comparison.mk s .descending).compare = fun t u => s.compare u t :=
      funext fun t => funext fun u => Comparison.compare_descending s t u
    rw [h]
    exact Std.TransCmp.opposite

namespace PairOrder

instance (o : PairOrder) : Std.TransCmp o.compareValues := by
  obtain ⟨k, v⟩ := o
  cases v with
  | none => exact { eq_swap := rfl, isLE_trans := fun _ _ => rfl }
  | some c => exact inferInstanceAs (Std.TransCmp c.compare)

instance (o : PairOrder) : Std.TransCmp o.compare := by
  have hkey : Std.TransCmp fun p q : Pair => o.key.compare p.1 q.1 := transCmp_on Prod.fst
  have hvalue : Std.TransCmp fun p q : Pair => o.compareValues p.2 q.2 := transCmp_on Prod.snd
  exact inferInstanceAs (Std.TransCmp (compareLex (fun p q : Pair => o.key.compare p.1 q.1)
    fun p q : Pair => o.compareValues p.2 q.2))

/-- Whatever the flags of both sides, comparing pairs is reflexive, reversed by exchanging the
pairs, and transitive, ties included. -/
theorem ofFlags_totalPreorder (key : SortFlags) (value : Option SortFlags) :
    (∀ p, (ofFlags key value).compare p p = .eq) ∧
    (∀ p q, (ofFlags key value).compare q p = ((ofFlags key value).compare p q).swap) ∧
    (∀ p q r, (ofFlags key value).compare p q ≠ .gt → (ofFlags key value).compare q r ≠ .gt →
      (ofFlags key value).compare p r ≠ .gt) ∧
    (∀ p q r, (ofFlags key value).compare p q = .eq → (ofFlags key value).compare q r = .eq →
      (ofFlags key value).compare p r = .eq) := by
  refine ⟨fun p => Std.ReflCmp.compare_self, fun p q => Std.OrientedCmp.eq_swap, ?_,
    fun p q r => Std.TransCmp.eq_trans⟩
  intro p q r hpq hqr
  rw [ne_eq, Ordering.ne_gt_iff_isLE] at hpq hqr ⊢
  exact Std.TransCmp.isLE_trans hpq hqr

/-- Three ways to write zero tie, and so do the outer two. -/
theorem ofFlags_totalPreorder_zeros :
    (ofFlags ⟨true, false, true⟩ none).compare (['-', '0', '.', '0'], []) ([' ', '0'], ['x']) = .eq ∧
    (ofFlags ⟨true, false, true⟩ none).compare ([' ', '0'], ['x']) (['1', 'e', '-', '4', '0', '0'], [])
      = .eq ∧
    (ofFlags ⟨true, false, true⟩ none).compare (['-', '0', '.', '0'], [])
      (['1', 'e', '-', '4', '0', '0'], []) = .eq := by
  have hpq : (ofFlags ⟨true, false, true⟩ none).compare (['-', '0', '.', '0'], [])
      ([' ', '0'], ['x']) = .eq := by decide +kernel
  have hqr : (ofFlags ⟨true, false, true⟩ none).compare ([' ', '0'], ['x'])
      (['1', 'e', '-', '4', '0', '0'], []) = .eq := by decide +kernel
  exact ⟨hpq, hqr, (ofFlags_totalPreorder ⟨true, false, true⟩ none).2.2.2 _ _ _ hpq hqr⟩

theorem isStableSort_sort (o : PairOrder) (pairs : List Pair) :
    IsStableSort o.compare pairs (o.sort pairs) :=
  isStableSort_mergeSort pairs

/-- Sorting yields the one list that has the pairs of the input, is ordered between all positions,
and keeps each class of tied pairs as it was; any other stable sort would yield the same. -/
theorem sort_unique_stable_sort (pairs : List Pair) (key : SortFlags) (value : Option SortFlags) :
    IsStableSort (ofFlags key value).compare pairs ((ofFlags key value).sort pairs) ∧
    sortPairs pairs key value = (ofFlags key value).sort pairs ∧
    (∀ output, IsStableSort (ofFlags key value).compare pairs output ↔
      output = (ofFlags key value).sort pairs) := by
  have hsort := isStableSort_sort (ofFlags key value) pairs
  refine ⟨hsort, rfl, fun output => ⟨fun h => h.unique hsort, ?_⟩⟩
  rintro rfl
  exact hsort

end PairOrder

end Wikitext
