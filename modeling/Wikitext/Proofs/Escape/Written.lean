import Mathlib.Data.List.Infix
import Mathlib.Data.Set.Function
import Wikitext.Proofs.Escape.Scan

/-! The language of escaped texts. It holds the texts that escaping produces, and no other text
comes back when it is unescaped and then escaped again. -/

namespace Wikitext

namespace Escape

def writtenDesignators : List Char :=
  ['\\', '{', '}', '(', ')', ':', '!', '=', '<', '>']

inductive Written : Text → Prop where
  | nil : Written []
  | bare {c : Char} {t : Text} (hc : sequence? c = none) (ht : Written t) : Written (c :: t)
  | sequence {d : Char} {t : Text} (hd : d ∈ writtenDesignators) (ht : Written t) :
    Written (marker :: d :: t)

theorem sequence?_eq_none_iff {c : Char} : sequence? c = none ↔ designator? c = none :=
  Option.map_eq_none_iff

theorem ne_marker_of_sequence? {c : Char} (h : sequence? c = none) : c ≠ marker := by
  rintro rfl
  cases h

theorem mem_writtenDesignators_iff {d : Char} :
    d ∈ writtenDesignators ↔ ∃ c, designator? c = some d := by
  constructor
  · intro h
    have hback : ∀ d ∈ writtenDesignators, (literal? d).bind designator? = some d := by
      simp [writtenDesignators, literal?, designator?]
    obtain ⟨c, -, hc⟩ := Option.bind_eq_some_iff.mp (hback d h)
    exact ⟨c, hc⟩
  · rintro ⟨c, h⟩
    unfold designator? at h
    split at h
    all_goals cases h
    all_goals simp [writtenDesignators]

theorem written_escape (t : Text) : Written (escape t) := by
  induction t with
  | nil => exact .nil
  | cons c t ih =>
    cases h : designator? c with
    | some d =>
      rw [escape_cons_of_designator h]
      exact .sequence (mem_writtenDesignators_iff.mpr ⟨c, h⟩) ih
    | none =>
      rw [escape_cons_of_none h]
      exact .bare (sequence?_eq_none_iff.mpr h) ih

theorem Written.escape_unescape {s : Text} (h : Written s) : escape (unescape s) = s := by
  induction h with
  | nil => rfl
  | bare hc _ ih =>
    rw [unescape_cons_of_ne (ne_marker_of_sequence? hc),
      escape_cons_of_none (sequence?_eq_none_iff.mp hc), ih]
  | sequence hd _ ih =>
    obtain ⟨c, hc⟩ := mem_writtenDesignators_iff.mp hd
    rw [unescape_pair (literal?_of_designator? hc), escape_cons_of_designator hc, ih]

theorem written_iff_exists_escape {s : Text} : Written s ↔ ∃ t, escape t = s := by
  constructor
  · intro h
    exact ⟨unescape s, h.escape_unescape⟩
  · rintro ⟨t, rfl⟩
    exact written_escape t

theorem escape_injective : Function.Injective escape :=
  Function.LeftInverse.injective unescape_escape

theorem bracket_notMem_escape (t : Text) : '[' ∉ escape t := by
  intro hmem
  rcases mem_escape hmem with hmarker | ⟨d, -, hwritten | ⟨hnone, rfl⟩⟩
  · exact absurd hmarker (by decide)
  · cases literal?_of_designator? hwritten
  · cases hnone

theorem Written.not_prefix_brace {s : Text} (h : Written s) : ¬ ['{'] <+: s := by
  cases h with
  | nil => simp
  | bare hc _ =>
    rw [List.cons_prefix_cons]
    rintro ⟨rfl, -⟩
    cases hc
  | sequence hd _ => simp [List.cons_prefix_cons, marker]

/-- A brace stands behind its marker, so no two of them meet. -/
theorem Written.not_infix_braces {s : Text} (h : Written s) : ¬ ['{', '{'] <:+: s := by
  induction h with
  | nil => simp
  | bare hc _ ih =>
    rw [List.infix_cons_iff, List.cons_prefix_cons]
    rintro (⟨rfl, -⟩ | hinfix)
    · cases hc
    · exact ih hinfix
  | sequence hd ht ih =>
    simp only [List.infix_cons_iff, List.cons_prefix_cons]
    rintro (⟨hmarker, -⟩ | ⟨-, hprefix⟩ | hinfix)
    · exact absurd hmarker (by decide)
    · exact ht.not_prefix_brace hprefix
    · exact ih hinfix

/-- What unescaping reads and escaping never writes. -/
inductive Symbol.Foreign : Symbol → Prop where
  | significant {c : Char} {h : c ≠ marker} (hc : (sequence? c).isSome = true) :
    Foreign (.plain c h)
  | stray : Foreign .stray
  | lineFeed {l : Char} {h : literal? 'n' = some l} : Foreign (.sequence 'n' l h)
  | space {l : Char} {h : literal? '_' = some l} : Foreign (.sequence '_' l h)

theorem mem_writtenDesignators_of_literal? {d l : Char} (h : literal? d = some l) (hn : d ≠ 'n')
    (hs : d ≠ '_') : d ∈ writtenDesignators := by
  unfold literal? at h
  split at h
  all_goals simp_all [writtenDesignators]

theorem Written.not_foreign {s : Text} (h : Written s) : ∀ x ∈ scan s, ¬ x.Foreign := by
  induction h with
  | nil => simp [scan]
  | bare hc _ ih =>
    rw [scan_cons_plain (ne_marker_of_sequence? hc)]
    refine List.forall_mem_cons.mpr ⟨?_, ih⟩
    rintro ⟨hsome⟩
    simp [hc] at hsome
  | sequence hd _ ih =>
    obtain ⟨c, hc⟩ := mem_writtenDesignators_iff.mp hd
    rw [scan_cons_sequence (literal?_of_designator? hc)]
    refine List.forall_mem_cons.mpr ⟨?_, ih⟩
    intro hforeign
    cases hforeign
    all_goals exact absurd hd (by decide)

theorem written_of_not_foreign {s : Text} (h : ∀ x ∈ scan s, ¬ x.Foreign) : Written s := by
  induction s using scan_induction with
  | nil => exact .nil
  | symbol x t hx ih =>
    rw [scan_append_spelling hx] at h
    obtain ⟨hfirst, hrest⟩ := List.forall_mem_cons.mp h
    have ht := ih hrest
    cases x with
    | plain c hc =>
      refine .bare (Option.not_isSome_iff_eq_none.mp fun hsome => ?_) ht
      exact hfirst (.significant hsome)
    | stray => exact absurd .stray hfirst
    | sequence d l hl =>
      have hn : d ≠ 'n' := by
        rintro rfl
        exact hfirst .lineFeed
      have hs : d ≠ '_' := by
        rintro rfl
        exact hfirst .space
      exact .sequence (mem_writtenDesignators_of_literal? hl hn hs) ht

/-- A text survives unescaping and escaping exactly if it is made of units that escaping writes, and
every other text is given away by a symbol of its scan. -/
theorem written_iff_reproduced :
    (∀ s, escape (unescape s) = s ↔ Written s) ∧
    (∀ s, (∃ t, escape t = s) ↔ Written s) ∧
    Set.BijOn escape Set.univ {s | Written s} ∧
    Set.InvOn unescape escape Set.univ {s | Written s} ∧
    ∀ s, spell (scan s) = s ∧ (scan s).map Symbol.literal = unescape s ∧
      (escape (unescape s) ≠ s ↔ ∃ x ∈ scan s, x.Foreign) := by
  have hfixed : ∀ s, escape (unescape s) = s ↔ Written s := by
    intro s
    constructor
    · intro h
      exact written_iff_exists_escape.mpr ⟨unescape s, h⟩
    · exact Written.escape_unescape
  have hinverse : Set.InvOn unescape escape Set.univ {s | Written s} :=
    ⟨fun t _ => unescape_escape t, fun s hs => Written.escape_unescape hs⟩
  have hbijective : Set.BijOn escape Set.univ {s | Written s} :=
    hinverse.bijOn (fun t _ => written_escape t) (fun s _ => Set.mem_univ _)
  refine ⟨hfixed, fun s => written_iff_exists_escape.symm, hbijective, hinverse,
    fun s => ⟨spell_scan s, (unescape_eq_map_scan s).symm, ?_⟩⟩
  have hforeign : Written s ↔ ∀ x ∈ scan s, ¬ x.Foreign :=
    ⟨Written.not_foreign, written_of_not_foreign⟩
  rw [Ne, hfixed, hforeign]
  simp only [not_forall, not_not, exists_prop]

end Escape

end Wikitext
