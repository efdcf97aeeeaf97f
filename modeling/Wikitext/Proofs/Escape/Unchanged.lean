import Mathlib.Data.List.Infix
import Wikitext.Proofs.Escape.Scan

/-! What unescaping takes away. Every sequence of the scan costs its text one scalar, and a text
without sequences is spelled as it reads. Which markers the scan pairs depends on the whole run
before them, but a designator right behind a marker is enough for some pair to be found. -/

namespace Wikitext

namespace Escape

def Symbol.isSequence : Symbol → Bool
  | sequence .. => true
  | _ => false

theorem Symbol.length_spelling (s : Symbol) :
    s.spelling.length = 1 + if s.isSequence then 1 else 0 := by
  cases s <;> rfl

theorem Symbol.spelling_of_not_isSequence {s : Symbol} (h : s.isSequence = false) :
    s.spelling = [s.literal] := by
  cases s with
  | plain => rfl
  | stray => rfl
  | sequence => cases h

theorem length_spell (symbols : List Symbol) :
    (spell symbols).length = symbols.length + symbols.countP Symbol.isSequence := by
  induction symbols with
  | nil => rfl
  | cons s symbols ih =>
    rw [spell_cons, List.length_append, s.length_spelling, ih, List.countP_cons, List.length_cons]
    omega

theorem spell_of_not_isSequence {symbols : List Symbol}
    (h : ∀ s ∈ symbols, s.isSequence = false) : spell symbols = symbols.map Symbol.literal := by
  induction symbols with
  | nil => rfl
  | cons s symbols ih =>
    obtain ⟨hs, hrest⟩ := List.forall_mem_cons.mp h
    rw [spell_cons, Symbol.spelling_of_not_isSequence hs, ih hrest]
    rfl

theorem length_unescape_add (t : Text) :
    (unescape t).length + (scan t).countP Symbol.isSequence = t.length := by
  calc (unescape t).length + (scan t).countP Symbol.isSequence
      = (scan t).length + (scan t).countP Symbol.isSequence := by
        rw [unescape_eq_map_scan, List.length_map]
    _ = (spell (scan t)).length := (length_spell _).symm
    _ = t.length := by rw [spell_scan]

theorem unescape_eq_self_iff_scan {t : Text} :
    unescape t = t ↔ ∀ s ∈ scan t, s.isSequence = false := by
  constructor
  · intro h
    have hlength := length_unescape_add t
    rw [h] at hlength
    have hcount : (scan t).countP Symbol.isSequence = 0 := by omega
    simpa using List.countP_eq_zero.mp hcount
  · intro h
    rw [unescape_eq_map_scan, ← spell_of_not_isSequence h, spell_scan]

/-- A marker with a designator behind it. -/
def HasPair (t : Text) : Prop :=
  ∃ d, isDesignator d = true ∧ [marker, d] <:+: t

theorem hasPair_cons {c : Char} {t : Text} :
    HasPair (c :: t) ↔ (c = marker ∧ startsWithDesignator t = true) ∨ HasPair t := by
  constructor
  · rintro ⟨d, hd, hpair⟩
    rcases List.infix_cons_iff.mp hpair with hhead | htail
    · obtain ⟨hc, u, rfl⟩ := List.cons_prefix_cons.mp hhead
      exact .inl ⟨hc.symm, by simpa [startsWithDesignator] using hd⟩
    · exact .inr ⟨d, hd, htail⟩
  · rintro (⟨rfl, hstart⟩ | ⟨d, hd, hpair⟩)
    · cases t with
      | nil => cases hstart
      | cons d t =>
        have hd : isDesignator d = true := by simpa [startsWithDesignator] using hstart
        exact ⟨d, hd, List.infix_append [] [marker, d] t⟩
    · exact ⟨d, hd, hpair.trans (List.suffix_cons c t).isInfix⟩

theorem hasPair_append_spelling {s : Symbol} {t : Text} (h : s.Fits t) :
    HasPair (s.spelling ++ t) ↔ s.isSequence = true ∨ HasPair t := by
  cases s with
  | plain c hc => simp [Symbol.spelling, Symbol.isSequence, hasPair_cons, hc]
  | stray => simp [Symbol.spelling, Symbol.isSequence, hasPair_cons, h rfl]
  | sequence d l hl =>
    have hd : isDesignator d = true := by simp [isDesignator, hl]
    simp [Symbol.spelling, Symbol.isSequence, hasPair_cons, startsWithDesignator, hd]

theorem exists_isSequence_iff {t : Text} : (∃ s ∈ scan t, s.isSequence = true) ↔ HasPair t := by
  induction t using scan_induction with
  | nil => simp [scan, HasPair]
  | symbol s t h ih =>
    rw [scan_append_spelling h, hasPair_append_spelling h, ← ih]
    simp

theorem unescape_eq_self_iff {t : Text} : unescape t = t ↔ ¬ HasPair t := by
  rw [← exists_isSequence_iff, unescape_eq_self_iff_scan]
  simp

theorem not_hasPair_of_notMem {t : Text} (h : marker ∉ t) : ¬ HasPair t := by
  rintro ⟨d, -, hpair⟩
  exact h (hpair.subset List.mem_cons_self)

theorem unescape_of_notMem {t : Text} (h : marker ∉ t) : unescape t = t :=
  unescape_eq_self_iff.mpr (not_hasPair_of_notMem h)

/-- A text is shortened by the pairs that the scan takes, and left alone exactly if no marker stands
right before a designator. So the scan may be spared where there is no marker. -/
theorem unescape_shortens_by_pairs (t : Text) :
    spell (scan t) = t ∧ (scan t).map Symbol.literal = unescape t ∧
    (unescape t).length + (scan t).countP Symbol.isSequence = t.length ∧
    (unescape t = t ↔ ¬ ∃ d, isDesignator d = true ∧ [marker, d] <:+: t) ∧
    unescape t = if marker ∈ t then (scan t).map Symbol.literal else t := by
  refine ⟨spell_scan t, (unescape_eq_map_scan t).symm, length_unescape_add t,
    unescape_eq_self_iff, ?_⟩
  by_cases hmarker : marker ∈ t
  · rw [if_pos hmarker, unescape_eq_map_scan]
  · rw [if_neg hmarker, unescape_of_notMem hmarker]

end Escape

end Wikitext
