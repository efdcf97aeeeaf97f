import Wikitext.Proofs.Escape.Separator
import Wikitext.Proofs.Escape.Written

/-! Joining escaped texts, and cutting one. Every cut of the join lies between two of the texts,
although the separator may be a designator and a text may end in markers. Every cut of an escaped text
lies where the text itself has the separator, although the sequences may hold it as a designator. -/

namespace Wikitext

open Escape

theorem splitRun_join_escape (c : Char) (texts : List Text) (hne : texts ≠ [])
    (hmarker : c ≠ marker) (h : (sequence? c).isSome = true ∨ ∀ t ∈ texts, c ∉ t) :
    SplitRun c ([c].intercalate (texts.map escape)) (texts.map escape) ∧
    ∀ pieces, SplitRun c ([c].intercalate (texts.map escape)) pieces →
      pieces = texts.map escape ∧ pieces.length = texts.length ∧ pieces.map unescape = texts := by
  have hpass : ∀ s ∈ texts.map escape, Passes c s := by
    intro s hs
    obtain ⟨t, ht, rfl⟩ := List.mem_map.mp hs
    exact passes_escape (h.imp_right fun hh => hh t ht)
  have hsplit : splitUnescaped c ([c].intercalate (texts.map escape)) = texts.map escape :=
    splitUnescaped_intercalate hmarker (mt List.map_eq_nil_iff.mp hne) hpass
  refine ⟨splitRun_iff.mpr hsplit.symm, fun pieces run => ?_⟩
  have hpieces : pieces = texts.map escape := (splitRun_iff.mp run).trans hsplit
  subst hpieces
  refine ⟨rfl, List.length_map escape, ?_⟩
  rw [List.map_map, funext (f := unescape ∘ escape) unescape_escape, List.map_id']

/-- Markers before a separator that escaping rewrites, and before one that it writes only within a
sequence. -/
theorem splitRun_join_escape_designators :
    (sequence? '{').isSome = true ∧
    SplitRun '{' ['\\', '\\', '{', '{', '\\', '{'] [['\\', '\\'], [], ['\\', '{']] ∧
    (∀ t ∈ [['|', '\\'], []], '!' ∉ t) ∧
    SplitRun '!' ['\\', '!', '\\', '\\', '!'] [['\\', '!', '\\', '\\'], []] ∧
    ∀ pieces, SplitRun '!' ['\\', '!', '\\', '\\', '!'] pieces →
      pieces.length = 2 ∧ pieces.map unescape = [['|', '\\'], []] := by
  have hbang : ∀ t ∈ [['|', '\\'], []], '!' ∉ t := by decide
  obtain ⟨hbrace, -⟩ :=
    splitRun_join_escape '{' [['\\'], [], ['{']] (by decide) (by decide) (.inl rfl)
  obtain ⟨hrun, hpieces⟩ :=
    splitRun_join_escape '!' [['|', '\\'], []] (by decide) (by decide) (.inr hbang)
  exact ⟨rfl, hbrace, hbang, hrun, fun pieces run => (hpieces pieces run).2⟩

theorem splitUnescapedOnce_escape_eq_none {c : Char} {t : Text}
    (h : (sequence? c).isSome = true ∨ c ∉ t) : splitUnescapedOnce c (escape t) = none :=
  splitUnescapedOnce_eq_none_of_passes (passes_escape h)

theorem splitUnescapedOnce_escape_append_cons {c : Char} (h : sequence? c = none) {before : Text}
    (hbefore : c ∉ before) (after : Text) :
    splitUnescapedOnce c (escape (before ++ c :: after)) = some (escape before, escape after) := by
  rw [escape_append, escape_cons_of_none (sequence?_eq_none_iff.mp h)]
  exact splitUnescapedOnce_of_passes (ne_marker_of_sequence? h) (passes_escape (.inr hbefore)) _

theorem splitRun_escape {c : Char} (h : sequence? c = none) (t : Text) :
    SplitRun c (escape t) ((t.splitOn c).map escape) := by
  by_cases hmem : c ∈ t
  · obtain ⟨before, after, rfl, hbefore⟩ := List.eq_append_cons_of_mem hmem
    rw [List.splitOn_append_cons_self_of_not_mem hbefore, List.map_cons]
    exact .cut (splitUnescapedOnce_escape_append_cons h hbefore after) (splitRun_escape h after)
  · rw [List.splitOn_eq_singleton hmem, List.map_singleton]
    exact .last (splitUnescapedOnce_escape_eq_none (.inr hmem))
termination_by t.length

theorem findUnescaped_escape {c : Char} (h : sequence? c = none) (t : Text) :
    findUnescaped c (escape t) = (cutAt c t).map fun cut => (utf8 (escape cut.1)).length := by
  rw [findUnescaped_eq_map_split]
  by_cases hmem : c ∈ t
  · obtain ⟨before, after, rfl, hbefore⟩ := List.eq_append_cons_of_mem hmem
    rw [splitUnescapedOnce_escape_append_cons h hbefore, cutAt_append_cons hbefore]
    rfl
  · rw [splitUnescapedOnce_escape_eq_none (.inr hmem), cutAt_eq_none_iff.mpr hmem]
    rfl

/-- A separator that escaping rewrites is found nowhere. Any other is found where it stands in the
text, be it a designator or not. -/
theorem splitRun_findUnescaped_escape (c : Char) (t : Text) :
    ((sequence? c).isSome = true →
      findUnescaped c (escape t) = none ∧
      ∀ pieces, SplitRun c (escape t) pieces ↔ pieces = [escape t]) ∧
    (sequence? c = none →
      findUnescaped c (escape t) =
        (cutAt c t).map (fun (before, _) => (utf8 (escape before)).length) ∧
      ∀ pieces, SplitRun c (escape t) pieces ↔ pieces = (t.splitOn c).map escape) := by
  constructor
  · intro h
    have hnone : splitUnescapedOnce c (escape t) = none := splitUnescapedOnce_escape_eq_none (.inl h)
    refine ⟨?_, (SplitRun.last hnone).iff_eq⟩
    rw [findUnescaped_eq_map_split, hnone, Option.map_none]
  · intro h
    exact ⟨findUnescaped_escape h t, (splitRun_escape h t).iff_eq⟩

/-- A bar becomes a sequence that ends in `!`, and an `n` may follow a marker that is paired. -/
theorem splitRun_findUnescaped_escape_designators :
    sequence? '!' = none ∧
    findUnescaped '!' ['\\', '!', '!', 'é', '!'] = some 2 ∧
    SplitRun '!' ['\\', '!', '!', 'é', '!'] [['\\', '!'], ['é'], []] ∧
    sequence? 'n' = none ∧
    SplitRun 'n' ['\\', '\\', 'n', 'q'] [['\\', '\\'], ['q']] ∧
    (sequence? '|').isSome = true ∧
    SplitRun '|' ['\\', '!', '!', 'é', '!'] [['\\', '!', '!', 'é', '!']] := by
  obtain ⟨hrewritten, -⟩ := splitRun_findUnescaped_escape '|' ['|', '!', 'é', '!']
  obtain ⟨-, hbang⟩ := splitRun_findUnescaped_escape '!' ['|', '!', 'é', '!']
  obtain ⟨-, hletter⟩ := splitRun_findUnescaped_escape 'n' ['\\', 'n', 'q']
  exact ⟨rfl, (hbang rfl).1, ((hbang rfl).2 _).mpr rfl, rfl, ((hletter rfl).2 _).mpr rfl, rfl,
    ((hrewritten rfl).2 _).mpr rfl⟩

end Wikitext
