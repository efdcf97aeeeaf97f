import Wikitext.Function.Choice
import Wikitext.Proofs.Escape.Scan

/-! The first alternative among lists put together. Whether a list has one is decided on the trimmed
text, before unescaping; the law can speak of the result instead, because unescaping leaves nothing
empty that was not. -/

namespace Wikitext

open Escape Script

/-- The second list is a fallback: it is asked for nothing unless the first comes to nothing. -/
theorem chooseFirst_append (xs ys : List Text) : chooseFirst (xs ++ ys) = (do
    let text ← chooseFirst xs
    if text = [] then chooseFirst ys else return text) := by
  induction xs with
  | nil => simp [chooseFirst]
  | cons raw xs ih =>
    rw [List.cons_append, chooseFirst, chooseFirst, bind_assoc]
    refine congrArg _ (funext fun answer => ?_)
    by_cases hblank : trimBlanks answer = []
    · simp only [hblank, if_true, ih]
    · simp only [hblank, if_false, pure_bind, unescape_eq_nil_iff]

section Results

variable (h : Host)

theorem result_chooseFirst_cons (raw : Text) (args : List Text) :
    (chooseFirst (raw :: args)).result h = if trimBlanks (h.expand .full raw) = [] then
      (chooseFirst args).result h else unescape (trimBlanks (h.expand .full raw)) := by
  rw [chooseFirst, result_bind, result_expandFull]
  by_cases hblank : trimBlanks (h.expand .full raw) = []
  · simp only [hblank, if_true]
  · simp only [hblank, if_false, result_pure]

theorem result_chooseFirst_eq_nil_iff (args : List Text) : (chooseFirst args).result h = [] ↔
    ∀ raw ∈ args, trimBlanks (h.expand .full raw) = [] := by
  induction args with
  | nil => simp [chooseFirst]
  | cons raw args ih =>
    rw [result_chooseFirst_cons, List.forall_mem_cons, ← ih]
    by_cases hblank : trimBlanks (h.expand .full raw) = []
    · simp only [hblank, if_true, true_and]
    · simp only [hblank, if_false, false_and, unescape_eq_nil_iff]

theorem result_chooseFirst_eq_find? (args : List Text) : (chooseFirst args).result h =
    (args.find? fun raw => trimBlanks (h.expand .full raw) ≠ []).elim []
      fun raw => (unescapeTrimmed [raw]).result h := by
  induction args with
  | nil => rfl
  | cons raw args ih =>
    rw [result_chooseFirst_cons]
    by_cases hblank : trimBlanks (h.expand .full raw) = []
    · rw [if_pos hblank, ih, List.find?_cons_of_neg (by simp [hblank])]
    · rw [if_neg hblank, List.find?_cons_of_pos (by simp [hblank])]
      rfl

end Results

/-- Of two lists the second counts, and is expanded, only if the first has nothing to give; what a list
gives is its first argument that is not blank, as it would be unescaped alone. -/
theorem chooseFirst_append_by_results (h : Host) :
    (∀ xs ys : List Text,
      (chooseFirst (xs ++ ys)).result h =
        (if (chooseFirst xs).result h = [] then (chooseFirst ys).result h
          else (chooseFirst xs).result h) ∧
      (chooseFirst (xs ++ ys)).calls h =
        if (chooseFirst xs).result h = [] then (chooseFirst xs).calls h ++ (chooseFirst ys).calls h
          else (chooseFirst xs).calls h) ∧
    ∀ args : List Text,
      ((chooseFirst args).result h = [] ↔
        ∀ raw ∈ args, trimBlanks (h.expand .full raw) = []) ∧
      (chooseFirst args).result h =
        (args.find? fun raw => trimBlanks (h.expand .full raw) ≠ []).elim []
          fun raw => (unescapeTrimmed [raw]).result h := by
  refine ⟨fun xs ys => ?_, fun args =>
    ⟨result_chooseFirst_eq_nil_iff h args, result_chooseFirst_eq_find? h args⟩⟩
  rw [chooseFirst_append, result_bind, calls_bind]
  by_cases hnil : (chooseFirst xs).result h = []
  · simp only [hnil, if_true, and_self]
  · simp only [hnil, if_false, result_pure, calls_pure, List.append_nil, and_self]

end Wikitext
