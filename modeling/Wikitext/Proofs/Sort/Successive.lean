import Mathlib.Data.List.Forall2
import Mathlib.Data.List.Induction
import Wikitext.Proofs.Sort.PairOrder

/-! Sorts in succession. A stable sort keeps what earlier sorts have done inside each of its classes
of ties, so a run of sorts is one stable sort by an order that asks the last of them first. -/

namespace Wikitext

section Composition

variable {α : Type} {cmp cmp' : α → α → Ordering} {l m r : List α}

theorem isStableSort_of_all_tie (l : List α) : IsStableSort (fun _ _ => .eq) l l where
  perm := List.Perm.refl l
  ordered := List.pairwise_of_forall (by simp)
  stable _ := rfl

/-- A tied pair of the second sort stands as it stood after the first. -/
theorem IsStableSort.sublist_of_tie [Std.ReflCmp cmp'] (h : IsStableSort cmp' m r) {a b : α}
    (hsub : [a, b].Sublist r) (htie : cmp' a b = .eq) : [a, b].Sublist m := by
  have hb : cmp' b b = .eq := Std.ReflCmp.compare_self
  have hclass : [a, b].Sublist (r.filter fun c => cmp' c b = .eq) := by
    have hfilter := hsub.filter fun c => cmp' c b = .eq
    simpa [htie, hb] using hfilter
  rw [h.stable b] at hclass
  exact hclass.trans List.filter_sublist

theorem IsStableSort.comp [Std.ReflCmp cmp'] (h : IsStableSort cmp l m)
    (h' : IsStableSort cmp' m r) : IsStableSort (compareLex cmp' cmp) l r where
  perm := h'.perm.trans h.perm
  ordered := by
    rw [List.pairwise_iff_forall_sublist]
    intro a b hsub
    have hle : cmp' a b ≠ .gt := List.pairwise_iff_forall_sublist.mp h'.ordered hsub
    by_cases htie : cmp' a b = .eq
    · have hfirst : cmp a b ≠ .gt :=
        List.pairwise_iff_forall_sublist.mp h.ordered (h'.sublist_of_tie hsub htie)
      simpa [compareLex, htie] using hfirst
    · cases hcmp : cmp' a b with
      | lt => simp [compareLex, hcmp]
      | eq => exact absurd hcmp htie
      | gt => exact absurd hcmp hle
  stable a := by
    have hclass : ∀ s : List α, s.filter (fun b => compareLex cmp' cmp b a = .eq) =
        (s.filter fun b => cmp' b a = .eq).filter fun b => cmp b a = .eq := by
      intro s
      rw [List.filter_filter]
      congr 1
      funext b
      simp [compareLex, Ordering.then_eq_eq, and_comm]
    have hcomm : ∀ s : List α, ((s.filter fun b => cmp' b a = .eq).filter fun b => cmp b a = .eq) =
        (s.filter fun b => cmp b a = .eq).filter fun b => cmp' b a = .eq := by
      intro s
      rw [List.filter_filter, List.filter_filter]
      congr 1
      funext b
      exact Bool.and_comm _ _
    calc r.filter (fun b => compareLex cmp' cmp b a = .eq)
        = (m.filter fun b => cmp' b a = .eq).filter fun b => cmp b a = .eq := by
          rw [hclass, h'.stable a]
      _ = (l.filter fun b => cmp b a = .eq).filter fun b => cmp' b a = .eq := by
          rw [hcomm, h.stable a]
      _ = l.filter fun b => compareLex cmp' cmp b a = .eq := by rw [← hcomm, ← hclass]

end Composition

namespace PairOrder

/-- The first of the orders that does not tie decides. -/
def compareByFirst : List PairOrder → Pair → Pair → Ordering
  | [], _, _ => .eq
  | o :: rest, p, q => (o.compare p q).then (compareByFirst rest p q)

theorem compareByFirst_cons (o : PairOrder) (rest : List PairOrder) :
    compareByFirst (o :: rest) = compareLex o.compare (compareByFirst rest) :=
  rfl

def sortAll (orders : List PairOrder) (pairs : List Pair) : List Pair :=
  orders.foldl (fun sorted o => o.sort sorted) pairs

theorem sortAll_concat (orders : List PairOrder) (o : PairOrder) (pairs : List Pair) :
    sortAll (orders ++ [o]) pairs = o.sort (sortAll orders pairs) := by
  rw [sortAll, List.foldl_append]
  rfl

instance (orders : List PairOrder) : Std.TransCmp (compareByFirst orders) := by
  induction orders with
  | nil => exact { eq_swap := rfl, isLE_trans := fun _ _ => rfl }
  | cons o rest ih =>
    rw [compareByFirst_cons]
    infer_instance

/-- By induction on the sorts made so far: one more sort puts its order in front. -/
theorem isStableSort_sortAll (orders : List PairOrder) (pairs : List Pair) :
    IsStableSort (compareByFirst orders.reverse) pairs (sortAll orders pairs) := by
  induction orders using List.reverseRecOn with
  | nil => exact isStableSort_of_all_tie pairs
  | append_singleton orders o ih =>
    rw [List.reverse_append, List.reverse_singleton, List.singleton_append, compareByFirst_cons,
      sortAll_concat]
    exact ih.comp (isStableSort_sort o _)

/-- Sorts in turn whose flags can be read yield, one after another, what the runs of them yield. -/
theorem sortInTurn_of_read {given : List (FlagsText × Option FlagsText)} {orders : List PairOrder}
    (h : List.Forall₂ (fun g o => read g.1 g.2 = .ok o) given orders) (pairs : List Pair) (i : ℕ)
    (hi : i < orders.length) :
    (sortInTurn pairs given)[i]? = some (.ok (sortAll (orders.take (i + 1)) pairs)) := by
  induction h generalizing pairs i with
  | nil => exact absurd hi (Nat.not_lt_zero i)
  | @cons g o given orders hread _ ih =>
    simp only [sortInTurn, hread]
    cases i with
    | zero => rfl
    | succ i =>
      have hrest := ih (o.sort pairs) i (Nat.lt_of_succ_lt_succ hi)
      simpa [sortAll] using hrest

theorem length_sortInTurn (pairs : List Pair) (given : List (FlagsText × Option FlagsText)) :
    (sortInTurn pairs given).length = given.length := by
  induction given generalizing pairs with
  | nil => rfl
  | cons g given ih =>
    cases hread : read g.1 g.2 <;> simp [sortInTurn, hread, ih]

theorem sort_sort (o : PairOrder) (pairs : List Pair) : o.sort (o.sort pairs) = o.sort pairs := by
  have hsorted : IsStableSort o.compare (o.sort pairs) (o.sort pairs) :=
    ⟨List.Perm.refl _, (isStableSort_sort o pairs).ordered, fun _ => rfl⟩
  exact (isStableSort_sort o (o.sort pairs)).unique hsorted

/-- Sorting by one setting after another is one stable sort by all of them, the last setting first;
it does not matter whether the settings are given as flags, bits or keywords. -/
theorem sort_successively_eq_stable_sort (pairs : List Pair)
    (settings : List (SortFlags × Option SortFlags)) :
    let output := settings.foldl (fun sorted s => sortPairs sorted s.1 s.2) pairs
    let cmp := compareByFirst (settings.map fun s => ofFlags s.1 s.2).reverse
    output = pairs.mergeSort (fun p q => (cmp p q).isLE) ∧
    (∀ l, IsStableSort cmp pairs l ↔ l = output) ∧
    (∀ s, settings.getLast? = some s → sortPairs output s.1 s.2 = output) ∧
    (∀ given, settings ≠ [] →
      List.Forall₂ (fun g s => read g.1 g.2 = .ok (ofFlags s.1 s.2)) given settings →
      (sortInTurn pairs given).getLast? = some (.ok output)) := by
  intro output cmp
  have hrun : output = sortAll (settings.map fun s => ofFlags s.1 s.2) pairs := by
    rw [sortAll, List.foldl_map]
    rfl
  have hstable : IsStableSort cmp pairs output := by
    rw [hrun]
    exact isStableSort_sortAll _ pairs
  refine ⟨hstable.unique (isStableSort_mergeSort pairs), fun l => ⟨fun h => h.unique hstable, ?_⟩,
    ?_, ?_⟩
  · rintro rfl
    exact hstable
  · intro s hs
    obtain ⟨before, rfl⟩ := List.getLast?_eq_some_iff.mp hs
    have hlast : output =
        (ofFlags s.1 s.2).sort (sortAll (before.map fun s => ofFlags s.1 s.2) pairs) := by
      rw [hrun, List.map_append, List.map_singleton, sortAll_concat]
    rw [hlast]
    exact sort_sort _ _
  · intro given hne hread
    have hlength := hread.length_eq
    have hpos := List.length_pos_iff.mpr hne
    have horders : List.Forall₂ (fun g o => read g.1 g.2 = .ok o) given
        (settings.map fun s => ofFlags s.1 s.2) :=
      List.forall₂_map_right_iff.mpr hread
    have hlast := sortInTurn_of_read horders pairs (settings.length - 1) (by simp; omega)
    have htake : settings.length - 1 + 1 = settings.length := by omega
    rw [List.getLast?_eq_getElem?, length_sortInTurn, hlength, hlast, hrun, htake,
      List.take_of_length_le (by simp)]

/-- The first sort survives as the order of the two keys that tie under the second. -/
theorem sort_successively_two_sorts :
    let settings : List (SortFlags × Option SortFlags) :=
      [(⟨false, true, false⟩, none), (⟨false, false, true⟩, none)]
    let given := [(FlagsText.keywords "alpha cs".toList, none), (FlagsText.bits 1, none)]
    List.Forall₂ (fun g s => read g.1 g.2 = .ok (ofFlags s.1 s.2)) given settings ∧
    (sortInTurn [(['b'], ['1']), (['B'], ['2']), (['a'], ['3'])] given).getLast? =
      some (.ok [(['B'], ['2']), (['b'], ['1']), (['a'], ['3'])]) := by
  intro settings given
  have hread : List.Forall₂ (fun g s => read g.1 g.2 = .ok (ofFlags s.1 s.2)) given settings :=
    .cons (by decide +kernel) (.cons (by decide +kernel) .nil)
  have hlast := (sort_successively_eq_stable_sort
    [(['b'], ['1']), (['B'], ['2']), (['a'], ['3'])] settings).2.2.2 given (by decide) hread
  have hfirst : sortPairs [(['b'], ['1']), (['B'], ['2']), (['a'], ['3'])] ⟨false, true, false⟩
      none = [(['B'], ['2']), (['a'], ['3']), (['b'], ['1'])] := by
    simp +decide [sortPairs, sort, List.mergeSort]
  have hsecond : sortPairs [(['B'], ['2']), (['a'], ['3']), (['b'], ['1'])] ⟨false, false, true⟩
      none = [(['B'], ['2']), (['b'], ['1']), (['a'], ['3'])] := by
    simp +decide [sortPairs, sort, List.mergeSort]
  refine ⟨hread, hlast.trans ?_⟩
  simp only [settings, List.foldl_cons, List.foldl_nil, hfirst, hsecond]

end PairOrder

end Wikitext
