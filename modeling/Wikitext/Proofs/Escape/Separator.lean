import Wikitext.Proofs.Escape.Scan
import Wikitext.Proofs.Escape.Split

/-! Separators in the scan. The search for a separator finds the first scalar that the scan copies,
and what stands on both sides of it is scanned as it was scanned within the whole text. So cutting
again and again takes the scan apart at each copy of the separator. -/

namespace Wikitext

open Escape

namespace Escape

def Symbol.copies (c : Char) : Symbol → Bool
  | plain d _ => d == c
  | _ => false

theorem Symbol.eq_plain_of_copies {c : Char} {s : Symbol} (h : s.copies c = true) :
    ∃ hc : c ≠ marker, s = .plain c hc := by
  cases s with
  | plain d hd =>
    obtain rfl : d = c := by simpa [Symbol.copies] using h
    exact ⟨hd, rfl⟩
  | stray => cases h
  | sequence => cases h

/-- The scan of a text around its first copy of `c`. -/
structure CutsScan (c : Char) (t : Text) (o : Occurrence Unit) : Prop where
  ne_marker : c ≠ marker
  scan_eq : scan t = scan o.before ++ .plain c ne_marker :: scan o.after
  first : ∀ s ∈ scan o.before, s.copies c = false

end Escape

theorem firstUnescaped_append_spelling {c : Char} {s : Symbol} {t : Text} (h : s.Fits t)
    (hs : s.copies c = false) :
    firstUnescaped c (s.spelling ++ t) = (firstUnescaped c t).map (·.prepend s.spelling) := by
  cases s with
  | plain d hd =>
    have hdc : d ≠ c := by simpa [Symbol.copies] using hs
    exact passes_singleton hd hdc t
  | stray =>
    cases t with
    | nil => simp [firstUnescaped, Symbol.spelling]
    | cons d t =>
      have hd : isDesignator d = false := h rfl
      simp [firstUnescaped, Symbol.spelling, hd, Occurrence.push, Occurrence.prepend]
  | sequence d l hl =>
    have hd : isDesignator d = true := by simp [isDesignator, hl]
    exact passes_sequence hd c t

theorem cutsScan_of_firstUnescaped {c : Char} {t : Text} {o : Occurrence Unit}
    (h : firstUnescaped c t = some o) : CutsScan c t o := by
  induction t using scan_induction generalizing o with
  | nil => cases h
  | symbol s t hs ih =>
    cases hcopy : s.copies c with
    | true =>
      obtain ⟨hc, rfl⟩ := Symbol.eq_plain_of_copies hcopy
      have ho : firstUnescaped c (c :: t) = some o := h
      rw [firstUnescaped_cons_self hc] at ho
      cases ho
      exact ⟨hc, scan_append_spelling hs, by simp [scan]⟩
    | false =>
      rw [firstUnescaped_append_spelling hs hcopy, Option.map_eq_some_iff] at h
      obtain ⟨o, ho, rfl⟩ := h
      obtain ⟨hc, hscan, hfirst⟩ := ih ho
      have hbefore : scan (s.spelling ++ o.before) = s :: scan o.before := by
        rw [firstUnescaped_eq ho] at hs
        exact scan_append_spelling hs.of_append
      refine ⟨hc, ?_, ?_⟩
      · rw [scan_append_spelling hs, hscan, Occurrence.prepend, hbefore, List.cons_append]
      · rw [Occurrence.prepend, hbefore]
        exact List.forall_mem_cons.mpr ⟨hcopy, hfirst⟩

theorem copies_eq_false_of_firstUnescaped {c : Char} {t : Text} (h : firstUnescaped c t = none) :
    ∀ s ∈ scan t, s.copies c = false := by
  induction t using scan_induction with
  | nil => simp [scan]
  | symbol s t hs ih =>
    cases hcopy : s.copies c with
    | true =>
      obtain ⟨hc, rfl⟩ := Symbol.eq_plain_of_copies hcopy
      have hsome := firstUnescaped_cons_self hc t
      cases h.symm.trans hsome
    | false =>
      rw [firstUnescaped_append_spelling hs hcopy, Option.map_eq_none_iff] at h
      rw [scan_append_spelling hs]
      exact List.forall_mem_cons.mpr ⟨hcopy, ih h⟩

theorem findUnescaped_eq_scan (c : Char) (t : Text) :
    findUnescaped c t = ((scan t).findIdx? (Symbol.copies c)).map
      fun i => (utf8 (spell ((scan t).take i))).length := by
  cases h : firstUnescaped c t with
  | none =>
    have hnone := List.findIdx?_eq_none_iff.mpr (copies_eq_false_of_firstUnescaped h)
    rw [findUnescaped, h, hnone]
    rfl
  | some o =>
    have hcuts := cutsScan_of_firstUnescaped h
    have hbefore := List.findIdx?_eq_none_iff.mpr hcuts.first
    have hplace : (scan t).findIdx? (Symbol.copies c) = some (scan o.before).length := by
      simp [hcuts.scan_eq, List.findIdx?_append, hbefore, List.findIdx?_cons, Symbol.copies]
    have htake : (scan t).take (scan o.before).length = scan o.before := by
      rw [hcuts.scan_eq, List.take_left]
    rw [findUnescaped, h, hplace, Option.map_some, Option.map_some, htake, spell_scan, length_utf8]

theorem findUnescaped_eq_map_split (c : Char) (t : Text) :
    findUnescaped c t = (splitUnescapedOnce c t).map fun split => (utf8 split.1).length := by
  rw [findUnescaped, splitUnescapedOnce_eq, Option.map_map]
  simp only [Function.comp_def, length_utf8]

/-- Cutting once, over and over, until no separator is left. -/
inductive SplitRun (c : Char) : Text → List Text → Prop where
  | last {t : Text} (h : splitUnescapedOnce c t = none) : SplitRun c t [t]
  | cut {t before after : Text} {pieces : List Text}
    (h : splitUnescapedOnce c t = some (before, after)) (rest : SplitRun c after pieces) :
    SplitRun c t (before :: pieces)

theorem splitRun_splitUnescaped (c : Char) (t : Text) : SplitRun c t (splitUnescaped c t) := by
  cases h : splitUnescapedOnce c t with
  | none =>
    rw [splitUnescaped_of_none h]
    exact .last h
  | some split =>
    obtain ⟨before, after⟩ := split
    have hlt : after.length < t.length := by
      rw [eq_of_splitUnescapedOnce h]
      simp
      omega
    rw [splitUnescaped_of_some h]
    exact .cut h (splitRun_splitUnescaped c after)
termination_by t.length

theorem splitRun_iff {c : Char} {t : Text} {pieces : List Text} :
    SplitRun c t pieces ↔ pieces = splitUnescaped c t := by
  constructor
  · intro run
    induction run with
    | last h => exact (splitUnescaped_of_none h).symm
    | cut h rest ih => rw [splitUnescaped_of_some h, ih]
  · rintro rfl
    exact splitRun_splitUnescaped c t

theorem SplitRun.iff_eq {c : Char} {t : Text} {pieces : List Text} (run : SplitRun c t pieces)
    (others : List Text) : SplitRun c t others ↔ others = pieces := by
  rw [splitRun_iff, splitRun_iff.mp run]

theorem cutsScan_of_splitUnescapedOnce {c : Char} {t before after : Text}
    (h : splitUnescapedOnce c t = some (before, after)) : CutsScan c t ⟨before, (), after⟩ := by
  rw [splitUnescapedOnce_eq, Option.map_eq_some_iff] at h
  obtain ⟨o, ho, he⟩ := h
  cases he
  exact cutsScan_of_firstUnescaped ho

theorem SplitRun.eq_splitOnP {c : Char} {t : Text} {pieces : List Text} (run : SplitRun c t pieces) :
    pieces = ((scan t).splitOnP (Symbol.copies c)).map spell := by
  induction run with
  | @last t h =>
    have hnone : firstUnescaped c t = none := by simpa [splitUnescapedOnce_eq] using h
    rw [List.splitOnP_eq_singleton (copies_eq_false_of_firstUnescaped hnone), List.map_singleton,
      spell_scan]
  | cut h rest ih =>
    have hcuts := cutsScan_of_splitUnescapedOnce h
    have hcopy : (Symbol.plain c hcuts.ne_marker).copies c = true := beq_self_eq_true c
    rw [hcuts.scan_eq, List.splitOnP_append_cons_of_forall_mem hcuts.first _ hcopy, List.map_cons,
      spell_scan, ih]

theorem unescape_of_splitUnescapedOnce {c : Char} {t before after : Text}
    (h : splitUnescapedOnce c t = some (before, after)) :
    unescape t = unescape before ++ c :: unescape after := by
  simp only [unescape_eq_map_scan, (cutsScan_of_splitUnescapedOnce h).scan_eq, List.map_append,
    List.map_cons, Symbol.literal]

theorem SplitRun.intercalate_map {c : Char} {f : Text → Text}
    (hf : ∀ {t before after}, splitUnescapedOnce c t = some (before, after) →
      f t = f before ++ c :: f after)
    {t : Text} {pieces : List Text} (run : SplitRun c t pieces) :
    [c].intercalate (pieces.map f) = f t := by
  induction run with
  | last h => simp
  | @cut t before after pieces h rest ih =>
    have hne : pieces.map f ≠ [] := by
      cases rest <;> simp
    rw [List.map_cons, List.intercalate_cons_of_ne_nil hne, ih, hf h]
    simp

/-- The first copy is found by its place in bytes, a run of cuts ends with one piece between any two
copies, and neither the text nor its unescaped form loses anything. -/
theorem unescaped_separators_of_scan (c : Char) (t : Text) :
    spell (scan t) = t ∧ (scan t).map Symbol.literal = unescape t ∧
    findUnescaped c t = ((scan t).findIdx? (Symbol.copies c)).map
      (fun i => (utf8 (spell ((scan t).take i))).length) ∧
    findUnescaped marker t = none ∧
    (∀ pieces, SplitRun c t pieces ↔ pieces = splitUnescaped c t) ∧
    splitUnescaped c t = ((scan t).splitOnP (Symbol.copies c)).map spell ∧
    [c].intercalate (splitUnescaped c t) = t ∧
    [c].intercalate ((splitUnescaped c t).map unescape) = unescape t := by
  have run := splitRun_splitUnescaped c t
  refine ⟨spell_scan t, (unescape_eq_map_scan t).symm, findUnescaped_eq_scan c t, ?_,
    fun pieces => splitRun_iff, run.eq_splitOnP, ?_,
    run.intercalate_map unescape_of_splitUnescapedOnce⟩
  · cases h : firstUnescaped marker t with
    | none => simp [findUnescaped, h]
    | some o => exact absurd rfl (firstUnescaped_ne_marker h)
  · have hjoin := run.intercalate_map eq_of_splitUnescapedOnce (f := id)
    rwa [List.map_id] at hjoin

example : findUnescaped '=' ['é', '\\', '=', '\\', ',', '='] = some 6 := by decide

end Wikitext
