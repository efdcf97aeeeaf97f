import Wikitext.Function.Token
import Wikitext.Proofs.Function.Argument

/-! What a substitution asks of its page, in order, and what it answers. The page sees the pattern
expanded only once the value stands in it, and with an empty value it is never asked for token or
pattern. -/

namespace Wikitext

open Script

variable (h : MemoryHost) (past : List Event) (args : List Text)

theorem run_tokenArgument : (tokenArgument args).run h past =
    (past ++ args[1]?.toList.map (.expanded .literal),
      args[1]?.elim ['x'] fun raw => unescape (trimBlanks (h.expand past .literal raw))) := by
  unfold tokenArgument
  cases args[1]? with
  | none => simp [Pattern.defaultToken]
  | some raw => simp

theorem run_renderPattern (value : Text) {token : Text} {next : List Event}
    (htoken : (tokenArgument args).run h past = (next, token)) :
    let pattern := args[2]?.getD ['x']
    let substituted := applyPattern value token (h.expand next .literal pattern)
    let afterPattern := next ++
      [.expanded .literal pattern, .logged (.substituted value token substituted)]
    (renderPattern value args).run h past = (afterPattern ++ [.expanded .full substituted],
      unescape (trimBlanks (h.expand afterPattern .full substituted))) := by
  intro pattern substituted afterPattern
  have hafter : next ++ [.expanded .literal pattern] ++
      [.logged (.substituted value token substituted)] = afterPattern := List.append_assoc _ _ _
  rw [renderPattern, run_bind_of_eq h htoken]
  change (expandLiteral pattern >>= _).run h next = _
  rw [run_bind_of_eq h (run_expandLiteral h next pattern)]
  change (write (.substituted value token substituted) >>= fun _ => expandFull substituted >>= _).run
    h (next ++ [.expanded .literal pattern]) = _
  rw [run_bind_of_eq h (run_write h _ _), hafter, run_bind_of_eq h (run_expandFull h _ substituted)]
  rfl

/-- The events hold every call of the page, and what is logged. -/
theorem substituteToken_run (h : MemoryHost) (args : List Text) :
    let value := args[0]?.elim [] fun raw => trimBlanks (h.expand [] .full raw)
    let afterValue := args[0]?.toList.map (Event.expanded .full)
    let token := args[1]?.elim ['x'] fun raw =>
      unescape (trimBlanks (h.expand afterValue .literal raw))
    let afterToken := afterValue ++ args[1]?.toList.map (Event.expanded .literal)
    let pattern := args[2]?.getD ['x']
    let substituted := applyPattern value token (h.expand afterToken .literal pattern)
    let afterPattern := afterToken ++
      [.expanded .literal pattern, .logged (.substituted value token substituted)]
    let substitution := (afterPattern ++ [.expanded .full substituted],
      unescape (trimBlanks (h.expand afterPattern .full substituted)))
    (substituteToken args).run h [] = substitution ∧
    (substituteTokenIf args).run h [] =
      if value = [] then
        (afterValue ++ args[3]?.toList.map (Event.expanded .full),
          args[3]?.elim [] fun raw => unescape (trimBlanks (h.expand afterValue .full raw)))
      else substitution := by
  intro value afterValue token afterToken pattern substituted afterPattern substitution
  have hvalue : (trimmedArgument args 0).run h [] = (afterValue, value) :=
    run_trimmedArgument h [] args 0
  have hpattern : (renderPattern value args).run h afterValue = substitution :=
    run_renderPattern h afterValue args value (run_tokenArgument h afterValue args)
  constructor
  · rw [substituteToken, run_bind_of_eq h hvalue, hpattern]
  · rw [substituteTokenIf, run_bind_of_eq h hvalue]
    split
    · rw [run_bind_of_eq h (run_trimmedArgument h afterValue args 3), run_pure]
      cases args[3]? <;> rfl
    · exact hpattern

end Wikitext
