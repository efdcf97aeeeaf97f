import Wikitext.Function.Argument

/-! Choosing by a key among cases. A case is a label, or a label and a value; a case without a
value falls through to the next one that has a value. -/

namespace Wikitext

structure Case where
  label : Text
  value? : Option Text
deriving DecidableEq

namespace Case

/-- The first equals sign separates, even one after a marker; space around it belongs to label and
value. -/
def ofText (t : Text) : Case :=
  match cutAt '=' (trimBlanks t) with
  | some (label, value) => ⟨unescape label, some value⟩
  | none => ⟨unescape (trimBlanks t), none⟩

/-- The value of the first case labelled `key`, or of the first case with a value after it. -/
def select (key : Text) (cases : List Case) : Option Text :=
  (cases.dropWhile (·.label ≠ key)).findSome? Case.value?

end Case

/-- The cases and the default: the last text if it has no equals sign, else nothing. -/
def splitDefault (texts : List Text) : List Text × Text :=
  match texts.getLast? with
  | none => ([], [])
  | some last => if '=' ∈ last then (texts, []) else (texts.dropLast, last)

/-- The key is the first argument. All cases are expanded, in order, before any is compared. -/
def switch : List Text → Script Text
  | [] | [_] => pure []
  | raw :: cases => do
    let key := unescape (trimBlanks (← Script.expandFull raw))
    let (texts, fallback) := splitDefault (← cases.mapM Script.expandFull)
    match Case.select key (texts.map Case.ofText) with
    | some value => return unescape (trimBlanks value)
    | none =>
      Script.write (.noCase key)
      return unescape (trimBlanks fallback)

end Wikitext
