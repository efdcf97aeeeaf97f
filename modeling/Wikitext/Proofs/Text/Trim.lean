import Mathlib.Data.List.DropRight
import Wikitext.Text.Space

/-! Trimming. Of a text there remains the one part that has no scalar of the class at its ends and
is surrounded by such scalars only. -/

namespace Wikitext

variable {p : Char → Bool} {t : Text}

def Unpadded (p : Char → Bool) (t : Text) : Prop :=
  (∀ c ∈ t.head?, p c = false) ∧ ∀ c ∈ t.getLast?, p c = false

instance (p : Char → Bool) (t : Text) : Decidable (Unpadded p t) :=
  decidable_of_iff (t.head?.all (fun c => !p c) = true ∧ t.getLast?.all (fun c => !p c) = true) (by
    simp only [Unpadded, Option.all_eq_true, Option.mem_def, Bool.not_eq_true'])

structure IsTrim (p : Char → Bool) (t core : Text) : Prop where
  unpadded : Unpadded p core
  surrounded : ∃ before after, t = before ++ core ++ after ∧ (∀ c ∈ before, p c = true) ∧
    ∀ c ∈ after, p c = true

theorem trimWhere_eq (p : Char → Bool) (t : Text) :
    trimWhere p t = (t.dropWhile p).rdropWhile p :=
  rfl

theorem rdropWhile_append_rtakeWhile (p : Char → Bool) (t : Text) :
    t.rdropWhile p ++ t.rtakeWhile p = t := by
  rw [List.rdropWhile, List.rtakeWhile, ← List.reverse_append, List.takeWhile_append_dropWhile,
    List.reverse_reverse]

theorem rdropWhile_append_of_all {after : Text} (h : ∀ c ∈ after, p c = true) (t : Text) :
    (t ++ after).rdropWhile p = t.rdropWhile p := by
  have hreverse : ∀ c ∈ after.reverse, p c = true := fun c hc => h c (List.mem_reverse.mp hc)
  rw [List.rdropWhile, List.reverse_append, List.dropWhile_append_of_pos hreverse, List.rdropWhile]

theorem rdropWhile_append_cons {c : Char} (hc : p c = false) (t after : Text) :
    (t ++ c :: after).rdropWhile p = t ++ c :: after.rdropWhile p := by
  have hsplit : t ++ c :: after = t ++ [c] ++ after := by simp
  have hkeep : (t ++ [c]).rdropWhile p = t ++ [c] := List.rdropWhile_concat_neg p t c (by simp [hc])
  rw [hsplit, List.rdropWhile, List.reverse_append, List.dropWhile_append]
  by_cases hempty : (after.reverse.dropWhile p).isEmpty = true
  · have hnil : after.rdropWhile p = [] := by
      simpa [List.rdropWhile] using List.isEmpty_iff.mp hempty
    rw [if_pos hempty, hnil]
    exact hkeep
  · rw [if_neg hempty]
    simp [List.rdropWhile]

theorem trimWhere_append_left {before : Text} (h : ∀ c ∈ before, p c = true) (t : Text) :
    trimWhere p (before ++ t) = trimWhere p t := by
  rw [trimWhere_eq, List.dropWhile_append_of_pos h, trimWhere_eq]

theorem trimWhere_append_right {after : Text} (h : ∀ c ∈ after, p c = true) (t : Text) :
    trimWhere p (t ++ after) = trimWhere p t := by
  rw [trimWhere_eq, trimWhere_eq, List.dropWhile_append]
  by_cases hempty : (t.dropWhile p).isEmpty = true
  · have hafter : after.dropWhile p = [] := List.dropWhile_eq_nil_iff.mpr h
    rw [if_pos hempty, hafter, List.isEmpty_iff.mp hempty]
  · rw [if_neg hempty, rdropWhile_append_of_all h]

theorem dropWhile_of_head {t : Text} (h : ∀ c ∈ t.head?, p c = false) : t.dropWhile p = t := by
  cases t with
  | nil => rfl
  | cons c t => exact List.dropWhile_cons_of_neg (by simp [h c rfl])

theorem trimWhere_of_unpadded (h : Unpadded p t) : trimWhere p t = t := by
  rw [trimWhere_eq, dropWhile_of_head h.1, List.rdropWhile_eq_self_iff]
  intro hne
  simp [h.2 (t.getLast hne) (List.getLast?_eq_some_getLast hne)]

theorem unpadded_trimWhere (p : Char → Bool) (t : Text) : Unpadded p (trimWhere p t) := by
  have hlast : ∀ c ∈ (trimWhere p t).getLast?, p c = false := by
    intro c hc
    obtain ⟨hne, rfl⟩ := List.mem_getLast?_eq_getLast hc
    exact Bool.eq_false_iff.mpr (List.rdropWhile_last_not p _ hne)
  refine ⟨fun c hc => ?_, hlast⟩
  have hprefix : trimWhere p t <+: t.dropWhile p := List.rdropWhile_prefix p _
  have hhead : c ∈ (t.dropWhile p).head? := by
    obtain ⟨rest, hrest⟩ := hprefix
    rw [← hrest, List.head?_append]
    simp [Option.mem_def.mp hc]
  have hnot := List.head?_dropWhile_not p t
  rw [Option.mem_def.mp hhead] at hnot
  exact hnot

theorem isTrim_trimWhere (p : Char → Bool) (t : Text) : IsTrim p t (trimWhere p t) where
  unpadded := unpadded_trimWhere p t
  surrounded := by
    refine ⟨t.takeWhile p, (t.dropWhile p).rtakeWhile p, ?_, fun c => List.mem_takeWhile_imp,
      fun c => List.mem_rtakeWhile_imp⟩
    rw [trimWhere_eq, List.append_assoc, rdropWhile_append_rtakeWhile,
      List.takeWhile_append_dropWhile]

theorem IsTrim.eq_trimWhere {core : Text} (h : IsTrim p t core) : core = trimWhere p t := by
  obtain ⟨before, after, rfl, hbefore, hafter⟩ := h.surrounded
  rw [trimWhere_append_right hafter, trimWhere_append_left hbefore,
    trimWhere_of_unpadded h.unpadded]

theorem isTrim_iff {core : Text} : IsTrim p t core ↔ core = trimWhere p t :=
  ⟨IsTrim.eq_trimWhere, fun h => h ▸ isTrim_trimWhere p t⟩

theorem trimWhere_subset (p : Char → Bool) (t : Text) : trimWhere p t ⊆ t := by
  obtain ⟨before, after, heq, -, -⟩ := (isTrim_trimWhere p t).surrounded
  intro c hc
  rw [heq]
  simp [hc]

theorem trimWhere_rdropWhile (p : Char → Bool) (t : Text) :
    trimWhere p (t.rdropWhile p) = trimWhere p t := by
  have h := trimWhere_append_right (fun c (hc : c ∈ t.rtakeWhile p) => List.mem_rtakeWhile_imp hc)
    (t.rdropWhile p)
  rw [← h, rdropWhile_append_rtakeWhile]

/-- A scalar of no concern to the trimming protects what stands before it. -/
theorem trimWhere_append_cons {c : Char} (hc : p c = false) {before : Text}
    (hbefore : ∀ d ∈ before.head?, p d = false) (after : Text) :
    trimWhere p (before ++ c :: after) = before ++ c :: after.rdropWhile p := by
  have hhead : ∀ d ∈ (before ++ c :: after).head?, p d = false := by
    cases before with
    | nil => simpa using hc
    | cons d before => simpa using hbefore
  rw [trimWhere_eq, dropWhile_of_head hhead, rdropWhile_append_cons hc]

end Wikitext
