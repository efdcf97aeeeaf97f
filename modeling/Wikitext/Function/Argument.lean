import Wikitext.Host.Script
import Wikitext.Escape.Basic
import Wikitext.Text.Space

/-! Positional arguments. A missing argument is empty, and the host is not asked for it. The
functions that only tidy up their first argument differ in the order of trimming and unescaping. -/

namespace Wikitext

def argument (args : List Text) (i : Nat) : Script Text :=
  match args[i]? with
  | none => pure []
  | some raw => Script.expandFull raw

def trimmedArgument (args : List Text) (i : Nat) : Script Text := do
  return trimBlanks (← argument args i)

def trimArgument (args : List Text) : Script Text :=
  trimmedArgument args 0

/-- Escaped space at the ends survives. -/
def unescapeTrimmed (args : List Text) : Script Text := do
  return unescape (← trimmedArgument args 0)

/-- Between tags that keep the page from reading the result as markup. -/
def unescapeNowiki (args : List Text) : Script Text := do
  return "<nowiki>".toList ++ (← unescapeTrimmed args) ++ "</nowiki>".toList

/-- No space survives at the ends. -/
def trimUnescaped (args : List Text) : Script Text := do
  return trimBlanks (unescape (← argument args 0))

end Wikitext
