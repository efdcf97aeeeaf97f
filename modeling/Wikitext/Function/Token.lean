import Wikitext.Function.Argument
import Wikitext.Pattern

/-! Putting a value into a pattern. Token and pattern are read as they are written, and the host
expands the pattern only after the value has been put in, so a template named in the pattern
receives the value. -/

namespace Wikitext

/-- The token that the second argument writes. -/
def tokenArgument (args : List Text) : Script Text :=
  match args[1]? with
  | none => pure Pattern.defaultToken
  | some raw => do return unescape (trimBlanks (← Script.expandLiteral raw))

/-- The value in place of the token of the second argument in the pattern of the third. -/
def renderPattern (value : Text) (args : List Text) : Script Text := do
  let token ← tokenArgument args
  let pattern ← Script.expandLiteral (args[2]?.getD Pattern.defaultPattern)
  let substituted := applyPattern value token pattern
  Script.write (.substituted value token substituted)
  return unescape (trimBlanks (← Script.expandFull substituted))

def substituteToken (args : List Text) : Script Text := do
  renderPattern (← trimmedArgument args 0) args

/-- An empty value is answered by the fourth argument, without a look at token and pattern. -/
def substituteTokenIf (args : List Text) : Script Text := do
  let value ← trimmedArgument args 0
  if value = [] then return unescape (← trimmedArgument args 3)
  else renderPattern value args

end Wikitext
