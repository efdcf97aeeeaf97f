import Wikitext.Function.Argument

/-! Functions that choose one of their arguments. The arguments not chosen are never expanded. -/

namespace Wikitext

/-- The second argument if the first is not empty, else the third. -/
def chooseNonempty (args : List Text) : Script Text := do
  let condition ← trimmedArgument args 0
  return unescape (← argument args (if condition = [] then 2 else 1))

/-- The third argument if the first two agree once trimmed and unescaped, else the fourth. -/
def chooseEqual (args : List Text) : Script Text := do
  let left ← trimmedArgument args 0
  let right ← trimmedArgument args 1
  return unescape (← argument args (if unescape left = unescape right then 2 else 3))

/-- The first argument that is not empty once trimmed. -/
def chooseFirst : List Text → Script Text
  | [] => pure []
  | raw :: args => do
    let value := trimBlanks (← Script.expandFull raw)
    if value = [] then chooseFirst args else return unescape value

end Wikitext
