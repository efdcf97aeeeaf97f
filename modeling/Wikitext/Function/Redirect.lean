import Wikitext.Function.Argument

/-! Following a redirect, one step. -/

namespace Wikitext

/-- The target of the page named by the first argument, or that page. -/
def followRedirect (args : List Text) : Script Text := do
  let page := trimBlanks (unescape (← argument args 0))
  match ← Script.redirectOf page with
  | none => return page
  | some target =>
    Script.write (.redirected page target)
    return target

end Wikitext
