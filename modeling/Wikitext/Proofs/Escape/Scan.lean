import Mathlib.Algebra.Ring.Parity
import Mathlib.Data.List.Induction
import Wikitext.Escape.Basic

/-! The scan that unescaping makes, as a list of symbols. Two texts are scanned one after the other
unless the last marker of the first is free to take the head of the second, and the length of the
run of markers at its end decides whether it is. -/

namespace Wikitext

namespace Escape

/-- What the scan takes at once. A stray marker has no designator after it. -/
inductive Symbol where
  | plain (c : Char) (h : c ≠ marker)
  | stray
  | sequence (d l : Char) (h : literal? d = some l)
deriving DecidableEq

namespace Symbol

def lone (c : Char) : Symbol :=
  if h : c = marker then stray else plain c h

def spelling : Symbol → Text
  | plain c _ => [c]
  | stray => [marker]
  | sequence d _ _ => [marker, d]

def literal : Symbol → Char
  | plain c _ => c
  | stray => marker
  | sequence _ l _ => l

end Symbol

def spell (symbols : List Symbol) : Text :=
  symbols.flatMap Symbol.spelling

def scan : Text → List Symbol
  | [] => []
  | [c] => [Symbol.lone c]
  | c :: d :: t =>
    if c = marker then
      match h : literal? d with
      | some l => .sequence d l h :: scan t
      | none => .stray :: scan (d :: t)
    else .lone c :: scan (d :: t)

def startsWithDesignator (t : Text) : Bool :=
  t.head?.any isDesignator

def EndsUnpaired (t : Text) : Prop :=
  (scan t).getLast? = some .stray

instance (t : Text) : Decidable (EndsUnpaired t) :=
  inferInstanceAs (Decidable (_ = _))

/-- The scan takes this symbol from the head of a text and goes on with `t`. -/
def Symbol.Fits (s : Symbol) (t : Text) : Prop :=
  s = .stray → startsWithDesignator t = false

theorem Symbol.fits_plain {c : Char} (h : c ≠ marker) (t : Text) : (plain c h).Fits t :=
  nofun

theorem Symbol.fits_sequence {d l : Char} (h : literal? d = some l) (t : Text) :
    (sequence d l h).Fits t :=
  nofun

theorem scan_append_spelling {s : Symbol} {t : Text} (h : s.Fits t) :
    scan (s.spelling ++ t) = s :: scan t := by
  cases s with
  | plain c hc =>
    change scan (c :: t) = _
    cases t <;> simp [scan, Symbol.lone, hc]
  | stray =>
    change scan (marker :: t) = _
    cases t with
    | nil => simp [scan, Symbol.lone]
    | cons d t =>
      have hd : literal? d = none := by simpa [startsWithDesignator, isDesignator] using h rfl
      simp only [scan, if_true]
      split
      · simp_all
      · rfl
  | sequence d l hl =>
    change scan (marker :: d :: t) = _
    simp only [scan, if_true]
    split
    · next l' h' =>
      obtain rfl : l' = l := Option.some.inj (h'.symm.trans hl)
      rfl
    · next h' => simp [hl] at h'

theorem scan_cons_plain {c : Char} (h : c ≠ marker) (t : Text) :
    scan (c :: t) = .plain c h :: scan t :=
  scan_append_spelling (Symbol.fits_plain h t)

theorem scan_cons_sequence {d l : Char} (h : literal? d = some l) (t : Text) :
    scan (marker :: d :: t) = .sequence d l h :: scan t :=
  scan_append_spelling (Symbol.fits_sequence h t)

@[elab_as_elim]
theorem scan_induction {motive : Text → Prop} (nil : motive [])
    (symbol : ∀ (s : Symbol) (t : Text), s.Fits t → motive t → motive (s.spelling ++ t)) (t : Text) :
    motive t := by
  induction t using scan.induct with
  | case1 => exact nil
  | case2 c =>
    by_cases h : c = marker
    · subst h
      exact symbol .stray [] (fun _ => rfl) nil
    · exact symbol (.plain c h) [] (Symbol.fits_plain h []) nil
  | case3 d t l h ih => exact symbol (.sequence d l h) t (Symbol.fits_sequence h t) ih
  | case4 d t h ih =>
    have hd : startsWithDesignator (d :: t) = false := by
      simp [startsWithDesignator, isDesignator, h]
    exact symbol .stray (d :: t) (fun _ => hd) ih
  | case5 c d t h ih => exact symbol (.plain c h) (d :: t) (Symbol.fits_plain h _) ih

@[simp] theorem spell_nil : spell [] = [] :=
  rfl

@[simp] theorem spell_cons (s : Symbol) (symbols : List Symbol) :
    spell (s :: symbols) = s.spelling ++ spell symbols :=
  rfl

theorem spell_scan (t : Text) : spell (scan t) = t := by
  induction t using scan_induction with
  | nil => rfl
  | symbol s t h ih => rw [scan_append_spelling h, spell_cons, ih]

theorem unescape_append_spelling {s : Symbol} {t : Text} (h : s.Fits t) :
    unescape (s.spelling ++ t) = s.literal :: unescape t := by
  cases s with
  | plain c hc => exact unescape_cons_of_ne hc t
  | stray =>
    cases t with
    | nil => rfl
    | cons d t =>
      apply unescape_marker_of_none
      simpa [startsWithDesignator, isDesignator] using h rfl
  | sequence d l hl => exact unescape_pair hl t

theorem unescape_eq_map_scan (t : Text) : unescape t = (scan t).map Symbol.literal := by
  induction t using scan_induction with
  | nil => rfl
  | symbol s t h ih => rw [unescape_append_spelling h, scan_append_spelling h, List.map_cons, ih]

theorem unescape_eq_nil_iff {t : Text} : unescape t = [] ↔ t = [] := by
  rw [unescape_eq_map_scan, List.map_eq_nil_iff]
  constructor
  · intro h
    rw [← spell_scan t, h, spell_nil]
  · rintro rfl
    rfl

theorem startsWithDesignator_append {p : Text} (hp : p ≠ []) (q : Text) :
    startsWithDesignator (p ++ q) = startsWithDesignator p := by
  cases p with
  | nil => exact absurd rfl hp
  | cons c p => rfl

theorem Symbol.Fits.of_append {s : Symbol} {p q : Text} (h : s.Fits (p ++ q)) : s.Fits p := by
  intro hs
  by_cases hp : p = []
  · rw [hp]
    rfl
  · exact (startsWithDesignator_append hp q).symm.trans (h hs)

theorem not_endsUnpaired_of_append_spelling {s : Symbol} {t : Text} (hs : s.Fits t)
    (h : ¬ EndsUnpaired (s.spelling ++ t)) : ¬ EndsUnpaired t := by
  intro ht
  apply h
  rw [EndsUnpaired, scan_append_spelling hs, List.getLast?_cons,
    show (scan t).getLast? = some .stray from ht]
  rfl

/-- Only a stray marker at the very end of `p` could take the head of `q`. -/
theorem scan_append {p q : Text} (h : ¬ EndsUnpaired p ∨ startsWithDesignator q = false) :
    scan (p ++ q) = scan p ++ scan q := by
  induction p using scan_induction with
  | nil => rfl
  | symbol s p hs ih =>
    have hp := h.imp_left (not_endsUnpaired_of_append_spelling hs)
    have hseam : s.Fits (p ++ q) := by
      intro hstray
      by_cases hnil : p = []
      · -- here the stray marker is the end of the first text
        subst hnil hstray
        exact h.resolve_left (not_not.mpr rfl)
      · exact (startsWithDesignator_append hnil q).trans (hs hstray)
    rw [List.append_assoc, scan_append_spelling hseam, ih hp, scan_append_spelling hs,
      List.cons_append]

theorem unescape_append {p q : Text} (h : ¬ EndsUnpaired p ∨ startsWithDesignator q = false) :
    unescape (p ++ q) = unescape p ++ unescape q := by
  simp only [unescape_eq_map_scan, scan_append h, List.map_append]

theorem getLast?_of_endsUnpaired {t : Text} (h : EndsUnpaired t) : t.getLast? = some marker := by
  obtain ⟨symbols, hs⟩ := List.getLast?_eq_some_iff.mp h
  rw [← spell_scan t, hs]
  simp [spell, Symbol.spelling]

theorem endsUnpaired_append_replicate {p : Text} (h : ¬ EndsUnpaired p) (n : ℕ) :
    EndsUnpaired (p ++ List.replicate n marker) ↔ Odd n := by
  induction n using Nat.twoStepInduction generalizing p with
  | zero => simpa using h
  | one =>
    have hscan : scan (p ++ [marker]) = scan p ++ [.stray] := scan_append (.inl h)
    simp [EndsUnpaired, hscan]
  | more n ih _ =>
    -- the next two markers make a sequence
    have hscan : scan (p ++ [marker, marker]) = scan p ++ [.sequence '\\' '\\' rfl] :=
      scan_append (.inl h)
    have hpair : ¬ EndsUnpaired (p ++ [marker, marker]) := by simp [EndsUnpaired, hscan]
    have hsplit : p ++ List.replicate (n + 2) marker =
        p ++ [marker, marker] ++ List.replicate n marker := by
      simp [List.replicate_succ]
    rw [hsplit, ih hpair]
    simp [parity_simps]

/-- Another unpaired marker before it would have taken it for its designator. -/
theorem EndsUnpaired.exists_append {t : Text} (h : EndsUnpaired t) :
    ∃ s, t = s ++ [marker] ∧ ¬ EndsUnpaired s := by
  induction t using List.reverseRecOn with
  | nil => cases h
  | append_singleton s c ih =>
    obtain rfl : c = marker := by simpa using getLast?_of_endsUnpaired h
    refine ⟨s, rfl, fun hs => ?_⟩
    obtain ⟨r, rfl, hr⟩ := ih hs
    have hodd : Odd 2 := (endsUnpaired_append_replicate hr 2).mp (by simpa using h)
    exact absurd hodd (by decide)

theorem endsUnpaired_iff_odd {r : Text} (h : r.getLast? ≠ some marker) (n : ℕ) :
    EndsUnpaired (r ++ List.replicate n marker) ↔ Odd n :=
  endsUnpaired_append_replicate (fun hr => h (getLast?_of_endsUnpaired hr)) n

/-- Only an unpaired marker, the last of an odd run, meets a designator across a seam. An escaped text
leaves none behind, so what follows it is free. -/
theorem unescape_append_at_seam :
    (∀ (r : Text) (n : ℕ), r.getLast? ≠ some marker →
      (EndsUnpaired (r ++ List.replicate n marker) ↔ Odd n)) ∧
    (∀ p q : Text, ¬ EndsUnpaired p ∨ startsWithDesignator q = false →
      unescape (p ++ q) = unescape p ++ unescape q) ∧
    (∀ p t s : Text, ¬ EndsUnpaired p →
      unescape (p ++ escape t ++ s) = unescape p ++ t ++ unescape s) ∧
    ∀ t : Text, unescape (escape t) = t := by
  refine ⟨fun r n h => endsUnpaired_iff_odd h n, fun p q h => unescape_append h, fun p t s h => ?_,
    unescape_escape⟩
  calc unescape (p ++ escape t ++ s)
      = unescape p ++ unescape (escape t ++ s) := by rw [List.append_assoc, unescape_append (.inl h)]
    _ = unescape p ++ t ++ unescape s := by rw [unescape_escape_append, List.append_assoc]

theorem unescape_append_at_seam_markers :
    (EndsUnpaired (['q'] ++ List.replicate 2 marker) ↔ Odd 2) ∧
    ¬ EndsUnpaired ['q', '\\', '\\'] ∧
    unescape (['q', '\\', '\\'] ++ ['n']) = ['q', '\\', 'n'] ∧
    EndsUnpaired ['\\'] ∧ startsWithDesignator ['é', '\\', '='] = false ∧
    unescape (['\\'] ++ ['é', '\\', '=']) = ['\\', 'é', '='] ∧
    unescape (['q', '\\', '\\'] ++ escape ['=', '\\'] ++ ['\\']) =
      ['q', '\\', '=', '\\', '\\'] := by
  obtain ⟨hrun, hseam, hescaped, -⟩ := unescape_append_at_seam
  have hpaired : ¬ EndsUnpaired ['q', '\\', '\\'] := by decide
  have hplain : startsWithDesignator ['é', '\\', '='] = false := rfl
  exact ⟨hrun ['q'] 2 (by decide), hpaired, hseam _ _ (.inl hpaired), by decide, hplain,
    hseam _ _ (.inr hplain), hescaped _ _ _ hpaired⟩

end Escape

end Wikitext
