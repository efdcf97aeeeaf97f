import Wikitext.Escape.Split

/-! Texts that the search for a separator runs through. The search leaves such a text as it entered
it, between two escape sequences, so a join of them is cut at the joints and nowhere else. -/

namespace Wikitext

open Escape

def Occurrence.prepend {α : Type} (s : Text) (o : Occurrence α) : Occurrence α :=
  { o with before := s ++ o.before }

/-- No unescaped `c` lies in `s`, and `s` does not end in the middle of a sequence. -/
def Passes (c : Char) (s : Text) : Prop :=
  ∀ t, firstUnescaped c (s ++ t) = (firstUnescaped c t).map (·.prepend s)

theorem firstUnescaped_cons_self {c : Char} (hc : c ≠ marker) (t : Text) :
    firstUnescaped c (c :: t) = some ⟨[], (), t⟩ := by
  cases t <;> simp [firstUnescaped, hc]

theorem passes_nil (c : Char) : Passes c [] := by
  intro t
  cases h : firstUnescaped c t <;> simp [h, Occurrence.prepend]

theorem Passes.append {c : Char} {s t : Text} (hs : Passes c s) (ht : Passes c t) :
    Passes c (s ++ t) := by
  intro u
  rw [List.append_assoc, hs, ht]
  cases firstUnescaped c u with
  | none => rfl
  | some o => simp [Occurrence.prepend]

theorem passes_singleton {c d : Char} (hd : d ≠ marker) (hdc : d ≠ c) : Passes c [d] := by
  intro t
  cases t with
  | nil => simp [firstUnescaped, hdc]
  | cons e t => simp [firstUnescaped, hd, hdc, Occurrence.push, Occurrence.prepend]

theorem passes_sequence {d : Char} (hd : isDesignator d = true) (c : Char) :
    Passes c [marker, d] := by
  intro t
  simp [firstUnescaped, hd, Occurrence.push, Occurrence.prepend]

/-- Escaping either rewrites `c` or finds none, so every scalar becomes a sequence or stays and is
neither `c` nor the marker. -/
theorem passes_escape {c : Char} {s : Text} (h : (sequence? c).isSome = true ∨ c ∉ s) :
    Passes c (escape s) := by
  induction s with
  | nil => exact passes_nil c
  | cons d s ih =>
    have hs : Passes c (escape s) := ih (h.imp_right fun hc hm => hc (List.mem_cons_of_mem d hm))
    cases hd : designator? d with
    | some e =>
      have he : isDesignator e = true := by
        rw [isDesignator, literal?_of_designator? hd]
        rfl
      rw [escape_cons_of_designator hd]
      exact (passes_sequence he c).append hs
    | none =>
      have hmarker : d ≠ marker := by
        rintro rfl
        cases hd
      have hdc : d ≠ c := by
        rintro rfl
        rcases h with h | h
        · simp [sequence?, hd] at h
        · exact h List.mem_cons_self
      rw [escape_cons_of_none hd]
      exact (passes_singleton hmarker hdc).append hs

theorem splitUnescapedOnce_of_passes {c : Char} (hc : c ≠ marker) {s : Text} (hs : Passes c s)
    (t : Text) : splitUnescapedOnce c (s ++ c :: t) = some (s, t) := by
  rw [splitUnescapedOnce_eq, hs, firstUnescaped_cons_self hc]
  simp [Occurrence.prepend]

theorem splitUnescapedOnce_eq_none_of_passes {c : Char} {s : Text} (hs : Passes c s) :
    splitUnescapedOnce c s = none := by
  have h := hs []
  rw [List.append_nil] at h
  rw [splitUnescapedOnce_eq, h]
  rfl

theorem splitUnescaped_of_none {c : Char} {t : Text} (h : splitUnescapedOnce c t = none) :
    splitUnescaped c t = [t] := by
  have hfirst : (unescapedFinder c).first? t = none := by
    simp [unescapedFinder, h]
  rw [splitUnescaped, Finder.divide_of_none hfirst, Division.texts_uncut]

theorem splitUnescaped_of_some {c : Char} {t before after : Text}
    (h : splitUnescapedOnce c t = some (before, after)) :
    splitUnescaped c t = before :: splitUnescaped c after := by
  have hfirst : (unescapedFinder c).first? t = some ⟨before, (), after⟩ := by
    simp [unescapedFinder, h, occurrenceOfSplit]
  rw [splitUnescaped, Finder.divide_of_some hfirst, Division.texts_cut]
  rfl

theorem splitUnescaped_intercalate {c : Char} (hc : c ≠ marker) {pieces : List Text}
    (hne : pieces ≠ []) (h : ∀ s ∈ pieces, Passes c s) :
    splitUnescaped c ([c].intercalate pieces) = pieces := by
  induction pieces with
  | nil => exact absurd rfl hne
  | cons s rest ih =>
    have hs := h s List.mem_cons_self
    cases rest with
    | nil =>
      rw [List.intercalate_singleton,
        splitUnescaped_of_none (splitUnescapedOnce_eq_none_of_passes hs)]
    | cons r rest =>
      have hrest := ih (List.cons_ne_nil r rest) fun u hu => h u (List.mem_cons_of_mem s hu)
      rw [List.intercalate_cons_cons, List.append_assoc, List.singleton_append,
        splitUnescaped_of_some (splitUnescapedOnce_of_passes hc hs _), hrest]

end Wikitext
