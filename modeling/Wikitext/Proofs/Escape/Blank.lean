import Wikitext.Proofs.Escape.Unchanged
import Wikitext.Proofs.Text.Trim

/-! Escaping and blanks. No sequence begins or ends with a blank, so the blanks around a text stay
what they are when it is escaped, and when it is unescaped. Escaping writes no blank either, and so a
text may be trimmed before or after it is escaped; unescaping may leave more to trim. -/

namespace Wikitext

open Escape

theorem isBlank_marker : isBlank marker = false := by decide

theorem designator?_of_isBlank {c : Char} (h : isBlank c = true) : designator? c = none := by
  simp only [isBlank, Bool.or_eq_true, beq_iff_eq, or_assoc] at h
  rcases h with rfl | rfl | rfl | rfl | rfl | rfl
  all_goals rfl

theorem isBlank_of_designator? {c d : Char} (h : designator? c = some d) : isBlank d = false := by
  unfold designator? at h
  split at h
  all_goals cases h
  all_goals decide

theorem escape_of_blanks {t : Text} (h : ∀ c ∈ t, isBlank c = true) : escape t = t := by
  induction t with
  | nil => rfl
  | cons c t ih =>
    have hc := designator?_of_isBlank (h c List.mem_cons_self)
    rw [escape_cons_of_none hc, ih fun d hd => h d (List.mem_cons_of_mem c hd)]

theorem isBlank_head_escape {t : Text} (h : ∀ c ∈ t.head?, isBlank c = false) :
    ∀ c ∈ (escape t).head?, isBlank c = false := by
  cases t with
  | nil => exact h
  | cons c t =>
    cases hd : designator? c with
    | some d =>
      rw [escape_cons_of_designator hd]
      simpa using isBlank_marker
    | none =>
      rw [escape_cons_of_none hd]
      simpa using h

theorem unpadded_escape {t : Text} (h : Unpadded isBlank t) : Unpadded isBlank (escape t) := by
  refine ⟨isBlank_head_escape h.1, ?_⟩
  rcases List.eq_nil_or_concat' t with rfl | ⟨t, c, rfl⟩
  · exact h.2
  · cases hd : designator? c with
    | some d =>
      have hlast : escape [c] = [marker, d] := escape_cons_of_designator hd []
      rw [escape_append, hlast]
      simpa using isBlank_of_designator? hd
    | none =>
      have hlast : escape [c] = [c] := escape_cons_of_none hd []
      rw [escape_append, hlast]
      simpa using h.2

theorem trimBlanks_escape (t : Text) : trimBlanks (escape t) = escape (trimBlanks t) := by
  have h := isTrim_trimWhere isBlank t
  obtain ⟨before, after, heq, hbefore, hafter⟩ := h.surrounded
  have hescape : IsTrim isBlank (escape t) (escape (trimBlanks t)) := by
    refine ⟨unpadded_escape h.unpadded, before, after, ?_, hbefore, hafter⟩
    have := congrArg escape heq
    rw [escape_append, escape_append, escape_of_blanks hbefore, escape_of_blanks hafter] at this
    exact this
  exact hescape.eq_trimWhere.symm

theorem unescape_trimBlanks_escape (t : Text) :
    unescape (trimBlanks (escape t)) = trimBlanks t := by
  rw [trimBlanks_escape, unescape_escape]

theorem isDesignator_of_isBlank {c : Char} (h : isBlank c = true) : isDesignator c = false := by
  simp only [isBlank, Bool.or_eq_true, beq_iff_eq, or_assoc] at h
  rcases h with rfl | rfl | rfl | rfl | rfl | rfl
  all_goals rfl

theorem marker_notMem_blanks {t : Text} (h : ∀ c ∈ t, isBlank c = true) : marker ∉ t := by
  intro hmem
  exact absurd (h marker hmem) (by simp [isBlank_marker])

theorem startsWithDesignator_blanks {t : Text} (h : ∀ c ∈ t, isBlank c = true) :
    startsWithDesignator t = false := by
  cases t with
  | nil => rfl
  | cons c t => exact isDesignator_of_isBlank (h c List.mem_cons_self)

/-- A marker at the end of the text finds no designator among the blanks, and they hold no marker. -/
theorem unescape_surrounded {before after : Text} (hbefore : ∀ c ∈ before, isBlank c = true)
    (hafter : ∀ c ∈ after, isBlank c = true) (t : Text) :
    unescape (before ++ t ++ after) = before ++ unescape t ++ after := by
  have hpaired : ¬ EndsUnpaired before := fun h =>
    marker_notMem_blanks hbefore (List.mem_of_getLast? (getLast?_of_endsUnpaired h))
  rw [unescape_append (.inr (startsWithDesignator_blanks hafter)), unescape_append (.inl hpaired),
    unescape_of_notMem (marker_notMem_blanks hbefore),
    unescape_of_notMem (marker_notMem_blanks hafter)]

theorem trimBlanks_unescape_trimBlanks (t : Text) :
    trimBlanks (unescape (trimBlanks t)) = trimBlanks (unescape t) := by
  obtain ⟨before, after, heq, hbefore, hafter⟩ := (isTrim_trimWhere isBlank t).surrounded
  have hunescape : unescape t = before ++ unescape (trimBlanks t) ++ after := by
    rw [← unescape_surrounded hbefore hafter]
    exact congrArg unescape heq
  calc trimBlanks (unescape (trimBlanks t))
      = trimBlanks (before ++ unescape (trimBlanks t)) := (trimWhere_append_left hbefore _).symm
    _ = trimBlanks (before ++ unescape (trimBlanks t) ++ after) :=
        (trimWhere_append_right hafter _).symm
    _ = trimBlanks (unescape t) := by rw [hunescape]

end Wikitext
