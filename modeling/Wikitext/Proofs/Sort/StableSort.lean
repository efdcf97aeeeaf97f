import Wikitext.Text.Basic

/-! Stable sorts of a list under a comparison. A list has one stable sort only: its order is fixed
between the classes of elements that tie by the comparison, and within them by the list itself. -/

namespace Wikitext

/-- Elements that tie keep the order that they have in the input. -/
structure IsStableSort {α : Type} (cmp : α → α → Ordering) (input output : List α) : Prop where
  perm : output.Perm input
  ordered : output.Pairwise fun a b => cmp a b ≠ .gt
  stable : ∀ a, output.filter (fun b => cmp b a = .eq) = input.filter fun b => cmp b a = .eq

variable {α : Type} {cmp : α → α → Ordering}

theorem eq_of_ne_gt [Std.OrientedCmp cmp] {a b : α} (hab : cmp a b ≠ .gt) (hba : cmp b a ≠ .gt) :
    cmp a b = .eq :=
  Std.OrientedCmp.isLE_antisymm (Ordering.ne_gt_iff_isLE.mp hab) (Ordering.ne_gt_iff_isLE.mp hba)

theorem isLE_total [Std.OrientedCmp cmp] (a b : α) : ((cmp a b).isLE || (cmp b a).isLE) = true := by
  have hswap : cmp b a = (cmp a b).swap := Std.OrientedCmp.eq_swap
  rw [hswap]
  cases cmp a b <;> rfl

theorem ne_gt_of_head_of_mem [Std.ReflCmp cmp] {a b : α} {l : List α}
    (h : (a :: l).Pairwise fun a b => cmp a b ≠ .gt) (hb : b ∈ a :: l) : cmp a b ≠ .gt := by
  rcases List.mem_cons.mp hb with rfl | hb
  · simp [Std.ReflCmp.compare_self]
  · exact List.rel_of_pairwise_cons h hb

theorem mem_of_filter_eq [Std.ReflCmp cmp] {l₁ l₂ : List α}
    (h : ∀ a, l₁.filter (fun b => cmp b a = .eq) = l₂.filter fun b => cmp b a = .eq) {a : α}
    (ha : a ∈ l₁) : a ∈ l₂ := by
  have hm : a ∈ l₁.filter fun b => cmp b a = .eq :=
    List.mem_filter.mpr ⟨ha, by simp [Std.ReflCmp.compare_self]⟩
  rw [h a] at hm
  exact (List.mem_filter.mp hm).1

/-- The heads tie, so both stand first in their common class and are equal. -/
theorem eq_of_ordered_of_filter_eq [Std.OrientedCmp cmp] {l₁ l₂ : List α}
    (h₁ : l₁.Pairwise fun a b => cmp a b ≠ .gt) (h₂ : l₂.Pairwise fun a b => cmp a b ≠ .gt)
    (h : ∀ a, l₁.filter (fun b => cmp b a = .eq) = l₂.filter fun b => cmp b a = .eq) :
    l₁ = l₂ := by
  induction l₁ generalizing l₂ with
  | nil =>
    cases l₂ with
    | nil => rfl
    | cons b l₂ => exact absurd (mem_of_filter_eq (fun a => (h a).symm) List.mem_cons_self) (by simp)
  | cons a l₁ ih =>
    cases l₂ with
    | nil => exact absurd (mem_of_filter_eq h List.mem_cons_self) (by simp)
    | cons b l₂ =>
      have hb : b ∈ a :: l₁ := mem_of_filter_eq (fun c => (h c).symm) List.mem_cons_self
      have ha : a ∈ b :: l₂ := mem_of_filter_eq h List.mem_cons_self
      have hba : cmp b a = .eq := eq_of_ne_gt (ne_gt_of_head_of_mem h₂ ha)
        (ne_gt_of_head_of_mem h₁ hb)
      have haa : cmp a a = .eq := Std.ReflCmp.compare_self
      have hheads := h a
      simp only [List.filter_cons, haa, hba, decide_true, if_true, List.cons.injEq] at hheads
      obtain ⟨rfl, -⟩ := hheads
      have htails : ∀ c, l₁.filter (fun b => cmp b c = .eq) = l₂.filter fun b => cmp b c = .eq := by
        intro c
        have hc := h c
        by_cases hac : cmp a c = .eq
        · simpa [hac] using hc
        · simpa [hac] using hc
      rw [ih (List.pairwise_cons.mp h₁).2 (List.pairwise_cons.mp h₂).2 htails]

theorem IsStableSort.unique [Std.OrientedCmp cmp] {input l₁ l₂ : List α}
    (h₁ : IsStableSort cmp input l₁) (h₂ : IsStableSort cmp input l₂) : l₁ = l₂ :=
  eq_of_ordered_of_filter_eq h₁.ordered h₂.ordered fun a => (h₁.stable a).trans (h₂.stable a).symm

section MergeSort

variable [Std.TransCmp cmp]

theorem mergeSort_ordered (l : List α) :
    (l.mergeSort fun a b => (cmp a b).isLE).Pairwise fun a b => (cmp a b).isLE = true :=
  List.pairwise_mergeSort (fun _ _ _ => Std.TransCmp.isLE_trans) isLE_total l

theorem filter_tie_ordered (l : List α) (a : α) :
    (l.filter fun b => cmp b a = .eq).Pairwise fun b c => (cmp b c).isLE = true := by
  rw [List.pairwise_iff_forall_sublist]
  intro b c hbc
  have hb := List.mem_filter.mp (hbc.subset (List.mem_cons_self (a := b)))
  have hc := List.mem_filter.mp (hbc.subset (List.mem_cons_of_mem b (List.mem_singleton_self c)))
  have hb' : cmp b a = .eq := of_decide_eq_true hb.2
  have hc' : cmp c a = .eq := of_decide_eq_true hc.2
  rw [Std.TransCmp.eq_trans hb' (Std.OrientedCmp.eq_symm hc')]
  rfl

theorem isStableSort_mergeSort (l : List α) :
    IsStableSort cmp l (l.mergeSort fun a b => (cmp a b).isLE) where
  perm := List.mergeSort_perm l _
  ordered := (mergeSort_ordered l).imp fun h => Ordering.ne_gt_iff_isLE.mpr h
  stable a := by
    have hsub : (l.filter fun b => cmp b a = .eq).Sublist
        (l.mergeSort fun a b => (cmp a b).isLE) :=
      List.sublist_mergeSort (fun _ _ _ => Std.TransCmp.isLE_trans) isLE_total
        (filter_tie_ordered l a) List.filter_sublist
    have hclass := hsub.filter fun b => cmp b a = .eq
    rw [List.filter_filter] at hclass
    simp only [Bool.and_self] at hclass
    have hlen := ((List.mergeSort_perm l fun a b => (cmp a b).isLE).filter
      fun b => cmp b a = .eq).length_eq
    exact (hclass.eq_of_length hlen.symm).symm

end MergeSort

end Wikitext
