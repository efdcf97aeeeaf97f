import Mathlib.Data.List.Forall2
import Wikitext.Proofs.Sort.PairOrder

/-! What the values have to do with a sort. Comparing them rearranges pairs inside the blocks of tied
keys and leaves the blocks where they are; without it a sort does not look at them. -/

namespace Wikitext

section Positions

variable {α : Type} {cmp : α → α → Ordering} [Std.TransCmp cmp] {l₁ l₂ : List α}

theorem exists_tie_of_countP_eq
    (h : ∀ a, l₁.countP (fun b => cmp b a = .eq) = l₂.countP fun b => cmp b a = .eq) {a : α}
    (ha : a ∈ l₁) : ∃ b ∈ l₂, cmp b a = .eq := by
  have hpos : 0 < l₁.countP fun b => cmp b a = .eq :=
    List.countP_pos_iff.mpr ⟨a, ha, by simp [Std.ReflCmp.compare_self]⟩
  rw [h a] at hpos
  simpa using List.countP_pos_iff.mp hpos

theorem head_ne_gt_of_countP_eq {a b : α} (h₁ : (a :: l₁).Pairwise fun a b => cmp a b ≠ .gt)
    (h : ∀ c, (a :: l₁).countP (fun b => cmp b c = .eq) = (b :: l₂).countP fun b => cmp b c = .eq) :
    cmp a b ≠ .gt := by
  obtain ⟨c, hc, htie⟩ := exists_tie_of_countP_eq (fun c => (h c).symm) (List.mem_cons_self (a := b))
  rw [← Std.TransCmp.congr_right htie]
  exact ne_gt_of_head_of_mem h₁ hc

/-- Two ordered lists with as many members in each class of ties tie place by place. The heads tie,
so without them each class still has as many members on both sides. -/
theorem forall₂_tie_of_countP_eq (h₁ : l₁.Pairwise fun a b => cmp a b ≠ .gt)
    (h₂ : l₂.Pairwise fun a b => cmp a b ≠ .gt)
    (h : ∀ a, l₁.countP (fun b => cmp b a = .eq) = l₂.countP fun b => cmp b a = .eq) :
    List.Forall₂ (fun a b => cmp a b = .eq) l₁ l₂ := by
  induction l₁ generalizing l₂ with
  | nil =>
    cases l₂ with
    | nil => exact .nil
    | cons b l₂ =>
      obtain ⟨c, hc, -⟩ := exists_tie_of_countP_eq (fun c => (h c).symm) (List.mem_cons_self (a := b))
      exact absurd hc List.not_mem_nil
  | cons a l₁ ih =>
    cases l₂ with
    | nil =>
      obtain ⟨c, hc, -⟩ := exists_tie_of_countP_eq h (List.mem_cons_self (a := a))
      exact absurd hc List.not_mem_nil
    | cons b l₂ =>
      have hheads : cmp a b = .eq := eq_of_ne_gt (head_ne_gt_of_countP_eq h₁ h)
        (head_ne_gt_of_countP_eq h₂ fun c => (h c).symm)
      have htails : ∀ c, l₁.countP (fun b => cmp b c = .eq) = l₂.countP fun b => cmp b c = .eq := by
        intro c
        have hc := h c
        rw [List.countP_cons, List.countP_cons, Std.TransCmp.congr_left hheads] at hc
        exact Nat.add_right_cancel hc
      exact .cons hheads (ih (List.pairwise_cons.mp h₁).2 (List.pairwise_cons.mp h₂).2 htails)

end Positions

namespace PairOrder

theorem ordered_by_key (o : PairOrder) (pairs : List Pair) :
    (o.sort pairs).Pairwise fun p q => o.key.compare p.1 q.1 ≠ .gt := by
  refine (isStableSort_sort o pairs).ordered.imp fun {p q} hle hgt => hle ?_
  rw [compare, hgt, Ordering.gt_then]

/-- Without a comparison of values only the keys are looked at. -/
theorem sort_map_values (key : Comparison) (f : Text → Text) (pairs : List Pair) :
    (PairOrder.mk key none).sort (pairs.map fun p => (p.1, f p.2)) =
      ((PairOrder.mk key none).sort pairs).map fun p => (p.1, f p.2) := by
  have hsame : ∀ p ∈ pairs, ∀ q ∈ pairs, ((PairOrder.mk key none).compare p q).isLE =
      ((PairOrder.mk key none).compare (p.1, f p.2) (q.1, f q.2)).isLE := fun _ _ _ _ => rfl
  exact (List.map_mergeSort hsame).symm

/-- Comparing values leaves a tied key at every place of the sorted list, so it rearranges pairs
inside blocks of tied keys only; and without it the values do not influence the order. -/
theorem sortPairs_key_blocks (pairs : List Pair) (key value : SortFlags) :
    List.Forall₂ (fun p q => key.comparison.compare p.1 q.1 = .eq)
      (sortPairs pairs key (some value)) (sortPairs pairs key none) ∧
    (sortPairs pairs key (some value)).Perm (sortPairs pairs key none) ∧
    ∀ f : Text → Text, sortPairs (pairs.map fun p => (p.1, f p.2)) key none =
      (sortPairs pairs key none).map fun p => (p.1, f p.2) := by
  have hperm : (sortPairs pairs key (some value)).Perm (sortPairs pairs key none) :=
    (isStableSort_sort _ pairs).perm.trans (isStableSort_sort _ pairs).perm.symm
  have hordered : ∀ value, (sortPairs pairs key value).Pairwise fun p q =>
      key.comparison.compare p.1 q.1 ≠ .gt := fun value => ordered_by_key (ofFlags key value) pairs
  have : Std.TransCmp fun p q : Pair => key.comparison.compare p.1 q.1 := transCmp_on Prod.fst
  exact ⟨forall₂_tie_of_countP_eq (hordered _) (hordered _) fun p => hperm.countP_eq _, hperm,
    fun f => sort_map_values key.comparison f pairs⟩

end PairOrder

end Wikitext
