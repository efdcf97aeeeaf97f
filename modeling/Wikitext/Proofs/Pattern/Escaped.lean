import Wikitext.Proofs.Escape.Scan
import Wikitext.Proofs.Pattern

/-! Escaped items in a pattern. Where no part before an item ends in an unpaired marker, unescaping
reads every part as if it stood alone and gives the item back. -/

namespace Wikitext

namespace Escape

theorem unescape_intercalate_escape (item : Text) {parts : List Text}
    (h : ∀ part ∈ parts.dropLast, ¬ EndsUnpaired part) :
    unescape ((escape item).intercalate parts) = item.intercalate (parts.map unescape) := by
  refine intercalate_map_of_append rfl fun part hpart rest => ?_
  rw [List.append_assoc, unescape_append (.inl (h part hpart)), unescape_escape_append,
    List.append_assoc]

/-- An unpaired marker takes the item `n` for its designator. -/
theorem EndsUnpaired.unescape_append_ne {part : Text} (h : EndsUnpaired part) (s t : Text) :
    unescape (part ++ ['n'] ++ s) ≠ unescape part ++ ['n'] ++ t := by
  obtain ⟨start, rfl, hstart⟩ := h.exists_append
  have hpair : unescape (start ++ [marker] ++ ['n'] ++ s) = unescape start ++ '\n' :: unescape s := by
    have hsplit : start ++ [marker] ++ ['n'] ++ s = start ++ (marker :: 'n' :: s) := by simp
    rw [hsplit, unescape_append (.inl hstart), unescape_pair rfl]
  rw [hpair, unescape_append (.inl hstart), List.append_assoc, List.append_assoc]
  intro heq
  have hhead := List.append_cancel_left heq
  simp [unescape, marker] at hhead

theorem not_endsUnpaired_of_unescape_intercalate {parts : List Text}
    (h : unescape (['n'].intercalate parts) = ['n'].intercalate (parts.map unescape)) :
    ∀ part ∈ parts.dropLast, ¬ EndsUnpaired part := by
  induction parts with
  | nil => simp
  | cons part parts ih =>
    by_cases hlast : parts = []
    · simp [hlast]
    · have hmap : parts.map unescape ≠ [] := mt List.map_eq_nil_iff.mp hlast
      rw [List.intercalate_cons_of_ne_nil hlast, List.map_cons,
        List.intercalate_cons_of_ne_nil hmap] at h
      have hpart : ¬ EndsUnpaired part := fun hends => hends.unescape_append_ne _ _ h
      rw [List.append_assoc, List.append_assoc, unescape_append (.inl hpart)] at h
      have hrest := List.append_cancel_left h
      rw [List.dropLast_cons_of_ne_nil hlast]
      refine List.forall_mem_cons.mpr ⟨hpart, ih ?_⟩
      rw [List.singleton_append, unescape_cons_of_ne (by decide)] at hrest
      exact List.tail_eq_of_cons_eq hrest

end Escape

open Escape Pattern

/-- Items come back at every occurrence exactly if no part before one ends in an unpaired marker, and
the parts are then read as they stand. -/
theorem unescape_applyPattern_escape {token : Text} (hne : token ≠ []) (pattern : Text) :
    ∃ parts, (∀ ps, IsParts token pattern ps ↔ ps = parts) ∧
      ((∀ part ∈ parts.dropLast, ¬ EndsUnpaired part) ↔
        ∀ item, unescape (applyPattern (escape item) token pattern) =
          item.intercalate (parts.map unescape)) := by
  have hparts := isParts_divide hne pattern
  refine ⟨_, fun ps => isParts_iff hne, fun h item => ?_, fun h => ?_⟩
  · rw [applyPattern_of_isParts hne hparts]
    exact unescape_intercalate_escape item h
  · have hitem := h ['n']
    rw [applyPattern_of_isParts hne hparts] at hitem
    exact not_endsUnpaired_of_unescape_intercalate hitem

/-- Adjacent occurrences after a paired marker, and an item that begins with a designator. -/
theorem unescape_applyPattern_escape_markers :
    ['x'] ≠ [] ∧
    IsParts ['x'] ['\\', '\\', 'x', 'x', '=', '\\'] [['\\', '\\'], [], ['=', '\\']] ∧
    (∀ part ∈ [['\\', '\\'], []], ¬ EndsUnpaired part) ∧
    unescape (applyPattern (escape ['n', '\\']) ['x'] ['\\', '\\', 'x', 'x', '=', '\\']) =
      ['\\'] ++ ['n', '\\'] ++ [] ++ ['n', '\\'] ++ ['=', '\\'] := by
  have hne : ['x'] ≠ [] := by decide
  have hparts : IsParts ['x'] ['\\', '\\', 'x', 'x', '=', '\\'] [['\\', '\\'], [], ['=', '\\']] := by
    decide
  have hpaired : ∀ part ∈ [['\\', '\\'], []], ¬ EndsUnpaired part := by decide
  obtain ⟨parts, hunique, hitems⟩ :=
    unescape_applyPattern_escape hne ['\\', '\\', 'x', 'x', '=', '\\']
  obtain rfl := (hunique _).mp hparts
  exact ⟨hne, hparts, hpaired, hitems.mp hpaired ['n', '\\']⟩

end Wikitext
