import Wikitext.Host.Script
import Wikitext.Escape.Basic
import Wikitext.Link

/-! Functions of the text between two tags. -/

namespace Wikitext

/-- Escaping comes first, so template syntax in the content is not expanded. -/
def escapeContent (content : Text) : Script Text :=
  Script.expandFull (escape content)

/-- A content of exactly `0` counts as empty. -/
def renderLinks (f : Text → Text) (content : Text) : Script Text := do
  let t ← Script.expandFull content
  return if t = [] ∨ t = ['0'] then [] else replaceLinks f t

def linkPages (content : Text) : Script Text :=
  renderLinks Link.page content

def linkLabels (content : Text) : Script Text :=
  renderLinks Link.label content

end Wikitext
