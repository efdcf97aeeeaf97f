import Wikitext.Function.Argument
import Wikitext.Proofs.Escape.Blank
import Wikitext.Proofs.Host.Memory

/-! What arguments ask of the page. A missing argument asks for nothing. Of the first argument the same
is left whether it is trimmed only after it is unescaped or before as well. -/

namespace Wikitext

open Script

variable (h : MemoryHost) (past : List Event) (args : List Text)

theorem run_argument (i : Nat) : (argument args i).run h past =
    (past ++ args[i]?.toList.map (.expanded .full), args[i]?.elim [] (h.expand past .full)) := by
  unfold argument
  cases args[i]? <;> simp

theorem run_trimmedArgument (i : Nat) : (trimmedArgument args i).run h past =
    (past ++ args[i]?.toList.map (.expanded .full),
      args[i]?.elim [] fun raw => trimBlanks (h.expand past .full raw)) := by
  rw [trimmedArgument, run_bind, run_argument, run_pure]
  cases args[i]? <;> rfl

/-- The answer to argument `i` on a page that has been asked for the arguments before it, in order. -/
def MemoryHost.answer (i : Nat) : Text :=
  args[i]?.elim [] (h.expand (past ++ (args.take i).map (.expanded .full)) .full)

theorem run_trimmedArgument_answer (i : Nat) :
    (trimmedArgument args i).run h (past ++ (args.take i).map (.expanded .full)) =
      (past ++ (args.take (i + 1)).map (.expanded .full), trimBlanks (h.answer past args i)) := by
  rw [run_trimmedArgument, List.take_add_one, List.map_append, ← List.append_assoc,
    MemoryHost.answer]
  cases args[i]? <;> rfl

theorem run_trimmedArgument_zero : (trimmedArgument args 0).run h past =
    (past ++ (args.take 1).map (.expanded .full), trimBlanks (h.answer past args 0)) := by
  have hfirst := run_trimmedArgument_answer h past args 0
  rwa [List.take_zero, List.map_nil, List.append_nil] at hfirst

theorem answer_eq_nil {i : Nat} (hi : args.length ≤ i) : h.answer past args i = [] := by
  rw [MemoryHost.answer, List.getElem?_eq_none hi]
  rfl

theorem answer_cons_zero (raw : Text) :
    h.answer past (raw :: args) 0 = h.expand past .full raw := by
  simp [MemoryHost.answer]

theorem answer_cons_succ (raw : Text) (i : Nat) :
    h.answer past (raw :: args) (i + 1) = h.answer (past ++ [.expanded .full raw]) args i := by
  simp [MemoryHost.answer]

theorem answer_of_take_eq {args others : List Text} {i n : ℕ} (hi : i < n)
    (htake : others.take n = args.take n) : h.answer past others i = h.answer past args i := by
  have hget : others[i]? = args[i]? := by
    simpa [List.getElem?_take, hi] using congrArg (·[i]?) htake
  have hbefore : others.take i = args.take i := by
    simpa [List.take_take, Nat.min_eq_left hi.le] using congrArg (List.take i) htake
  rw [MemoryHost.answer, MemoryHost.answer, hget, hbefore]

theorem trimUnescaped_eq_map : trimUnescaped args = trimBlanks <$> unescapeTrimmed args := by
  simp only [trimUnescaped, unescapeTrimmed, trimmedArgument, map_eq_pure_bind, bind_assoc, pure_bind,
    trimBlanks_unescape_trimBlanks]

/-- Blanks at the ends of what the page answers pass through unescaping, so no trim before it is seen
once the result is trimmed. -/
theorem run_trimUnescaped_eq_trim :
    (∀ t, trimBlanks (unescape t) = trimBlanks (unescape (trimBlanks t))) ∧
    ∀ (h : MemoryHost) (past : List Event) (args : List Text),
      let (asked, text) := (unescapeTrimmed args).run h past
      (trimUnescaped args).run h past = (asked, trimBlanks text) := by
  refine ⟨fun t => (trimBlanks_unescape_trimBlanks t).symm, fun h past args => ?_⟩
  rw [trimUnescaped_eq_map, run_map]

end Wikitext
