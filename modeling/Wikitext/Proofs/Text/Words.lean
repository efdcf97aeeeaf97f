import Mathlib.Data.List.TakeWhile
import Wikitext.Text.Space

/-! The words of a text. They have no white space in them, and white space alone stands around and
between them; so each text has one list of words. -/

namespace Wikitext

def IsWord (w : Text) : Prop :=
  w ≠ [] ∧ ∀ c ∈ w, isSpace c = false

inductive IsWords : Text → List Text → Prop where
  | none {t : Text} (h : ∀ c ∈ t, isSpace c = true) : IsWords t []
  | word {before w after : Text} {ws : List Text} (hbefore : ∀ c ∈ before, isSpace c = true)
    (hw : IsWord w) (hafter : ∀ c ∈ after.head?, isSpace c = true) (rest : IsWords after ws) :
    IsWords (before ++ w ++ after) (w :: ws)

theorem words_nil : words [] = [] :=
  rfl

theorem words_cons_of_space {c : Char} (h : isSpace c = true) (t : Text) :
    words (c :: t) = words t := by
  simp [words, List.splitOnP_cons_eq_if_modifyHead, h]

theorem words_append_of_spaces {before : Text} (h : ∀ c ∈ before, isSpace c = true) (t : Text) :
    words (before ++ t) = words t := by
  induction before with
  | nil => rfl
  | cons c before ih =>
    obtain ⟨hc, hbefore⟩ := List.forall_mem_cons.mp h
    rw [List.cons_append, words_cons_of_space hc, ih hbefore]

theorem words_word_append {w after : Text} (hw : IsWord w)
    (hafter : ∀ c ∈ after.head?, isSpace c = true) : words (w ++ after) = w :: words after := by
  cases after with
  | nil =>
    rw [List.append_nil, words, List.splitOnP_eq_singleton hw.2, words_nil]
    simp [hw.1]
  | cons c after =>
    have hc : isSpace c = true := hafter c rfl
    rw [words_cons_of_space hc, words, List.splitOnP_append_cons_of_forall_mem hw.2 c hc]
    simp [hw.1, words]

theorem IsWords.eq_words {t : Text} {ws : List Text} (h : IsWords t ws) : ws = words t := by
  induction h with
  | @none t h =>
    have hempty := words_append_of_spaces h []
    rw [List.append_nil] at hempty
    rw [hempty, words_nil]
  | word hbefore hw hafter _ ih =>
    rw [List.append_assoc, words_append_of_spaces hbefore, words_word_append hw hafter, ih]

theorem exists_isWords (t : Text) : ∃ ws, IsWords t ws := by
  have hspaces : ∀ c ∈ t.takeWhile isSpace, isSpace c = true := fun c => List.mem_takeWhile_imp
  have hsplit : t.takeWhile isSpace ++ t.dropWhile isSpace = t := List.takeWhile_append_dropWhile
  cases hrest : t.dropWhile isSpace with
  | nil =>
    rw [hrest, List.append_nil] at hsplit
    exact ⟨[], .none (hsplit ▸ hspaces)⟩
  | cons c rest =>
    have hc : isSpace c = false := by
      have hnot := List.head?_dropWhile_not isSpace t
      rwa [hrest] at hnot
    let w := (c :: rest).takeWhile fun d => !isSpace d
    let after := (c :: rest).dropWhile fun d => !isSpace d
    have hparts : w ++ after = c :: rest := List.takeWhile_append_dropWhile
    have hw : IsWord w := by
      refine ⟨by simp [w, hc], fun d hd => ?_⟩
      simpa using List.mem_takeWhile_imp hd
    have hafter : ∀ d ∈ after.head?, isSpace d = true := by
      intro d hd
      have hnot := List.head?_dropWhile_not (fun d => !isSpace d) (c :: rest)
      rw [Option.mem_def.mp hd] at hnot
      simpa using hnot
    have hlt : after.length < t.length := by
      have hlength := congrArg List.length hsplit
      have hlength' := congrArg List.length hparts
      have hpos := List.length_pos_iff.mpr hw.1
      rw [hrest] at hlength
      simp only [List.length_append] at hlength hlength'
      omega
    obtain ⟨ws, hws⟩ := exists_isWords after
    rw [← hsplit, hrest, ← hparts, ← List.append_assoc]
    exact ⟨w :: ws, .word hspaces hw hafter hws⟩
termination_by t.length

theorem isWords_iff {t : Text} {ws : List Text} : IsWords t ws ↔ ws = words t := by
  refine ⟨IsWords.eq_words, ?_⟩
  rintro rfl
  obtain ⟨ws, hws⟩ := exists_isWords t
  exact hws.eq_words ▸ hws

theorem IsWords.isWord {t : Text} {ws : List Text} (h : IsWords t ws) : ∀ w ∈ ws, IsWord w := by
  induction h with
  | none h => simp
  | word hbefore hw hafter rest ih => exact List.forall_mem_cons.mpr ⟨hw, ih⟩

/-- Words can be written again with one space between them. -/
theorem words_intercalate {ws : List Text} (h : ∀ w ∈ ws, IsWord w) :
    words ([' '].intercalate ws) = ws := by
  induction ws with
  | nil => rfl
  | cons w ws ih =>
    obtain ⟨hw, hws⟩ := List.forall_mem_cons.mp h
    cases ws with
    | nil =>
      have hlast : words (w ++ []) = w :: words [] := words_word_append hw (by simp)
      simpa [words_nil] using hlast
    | cons v ws =>
      have hspace : ∀ c ∈ (' ' :: [' '].intercalate (v :: ws)).head?, isSpace c = true := by
        simp [isSpace]
      rw [List.intercalate_cons_of_ne_nil (List.cons_ne_nil v ws), List.append_assoc,
        List.singleton_append, words_word_append hw hspace, words_cons_of_space (by decide),
        ih hws]

end Wikitext
