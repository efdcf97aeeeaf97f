import Wikitext.Text.Division

/-! The leftmost place at which a recogniser finds something, a division filled with one text at
every place, and functions that work on the texts of a join one by one. -/

namespace Wikitext

variable {α : Type} {here? : Text → Option (α × Text)} {t : Text}

theorem leftmost_of_firstWhere {o : Occurrence α} (h : firstWhere here? t = some o) :
    ∃ s, t = o.before ++ s ∧ here? s = some (o.found, o.after) ∧
      ∀ b r, t = b ++ r → here? r ≠ none → o.before.length ≤ b.length := by
  induction t generalizing o with
  | nil => cases h
  | cons c t ih =>
    cases hh : here? (c :: t) with
    | some p =>
      simp only [firstWhere, hh, Option.some.injEq] at h
      subst h
      exact ⟨c :: t, rfl, hh, fun b r _ _ => Nat.zero_le _⟩
    | none =>
      simp only [firstWhere, hh, Option.map_eq_some_iff] at h
      obtain ⟨o, ho, rfl⟩ := h
      obtain ⟨s, ht, hs, hleft⟩ := ih ho
      refine ⟨s, by simp [Occurrence.push, ht], hs, fun b r hb hr => ?_⟩
      cases b with
      | nil =>
        rw [List.nil_append] at hb
        exact absurd (hb ▸ hh) hr
      | cons d b =>
        have hb' : t = b ++ r := (List.cons.inj hb).2
        exact Nat.succ_le_succ (hleft b r hb' hr)

theorem here?_eq_none_of_firstWhere (h : firstWhere here? t = none) {b r : Text}
    (ht : t = b ++ r) (hr : r ≠ []) : here? r = none := by
  induction t generalizing b with
  | nil => exact absurd (List.append_eq_nil_iff.mp ht.symm).2 hr
  | cons c t ih =>
    cases hh : here? (c :: t) with
    | some p => simp [firstWhere, hh] at h
    | none =>
      simp only [firstWhere, hh, Option.map_eq_none_iff] at h
      cases b with
      | nil =>
        rw [List.nil_append] at ht
        exact ht ▸ hh
      | cons d b => exact ih h (List.cons.inj ht).2

theorem fill_const (d : Division Unit) (s : Text) :
    d.fill (fun _ => s) = s.intercalate d.texts := by
  obtain ⟨cuts, last⟩ := d
  induction cuts with
  | nil => simp
  | cons cut cuts ih =>
    obtain ⟨before, a⟩ := cut
    have hne : (⟨cuts, last⟩ : Division Unit).texts ≠ [] := by simp [Division.texts]
    rw [Division.fill_cut, Division.texts_cut, List.intercalate_cons_of_ne_nil hne, ih]

theorem intercalate_map_of_append {f : Text → Text} {s r : Text} {texts : List Text}
    (hnil : f [] = [])
    (h : ∀ t ∈ texts.dropLast, ∀ rest, f (t ++ s ++ rest) = f t ++ r ++ f rest) :
    f (s.intercalate texts) = r.intercalate (texts.map f) := by
  induction texts with
  | nil => exact hnil
  | cons t texts ih =>
    by_cases hlast : texts = []
    · simp [hlast]
    · have hmap : texts.map f ≠ [] := mt List.map_eq_nil_iff.mp hlast
      rw [List.dropLast_cons_of_ne_nil hlast] at h
      obtain ⟨ht, htexts⟩ := List.forall_mem_cons.mp h
      rw [List.intercalate_cons_of_ne_nil hlast, ht, ih htexts, List.map_cons,
        List.intercalate_cons_of_ne_nil hmap]

end Wikitext
