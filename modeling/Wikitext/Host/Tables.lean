import Wikitext.Host.Script
import Wikitext.Pattern

/-! A host given by tables: the values of arguments and templates by name, and the targets of
redirects. -/

namespace Wikitext

structure HostTables where
  arguments : List (Text × Text)
  templates : List (Text × Text)

namespace HostTables

/-- One pass over the text for every row, each on the result of the row before. -/
def substitute (reference : Text → Text) (rows : List (Text × Text)) (t : Text) : Text :=
  rows.foldl (fun t row => applyPattern row.2 (reference row.1) t) t

def argumentReference (name : Text) : Text :=
  ['{', '{', '{'] ++ name ++ ['}', '}', '}']

def templateCall (name : Text) : Text :=
  ['{', '{'] ++ name ++ ['}', '}']

/-- References to arguments are expanded before calls of templates. -/
def expand (tables : HostTables) (mode : ExpandMode) (raw : Text) : Text :=
  let t := if mode.keepArguments then raw
    else substitute argumentReference tables.arguments raw
  if mode.keepTemplates then t else substitute templateCall tables.templates t

end HostTables

/-- The last row for a page counts. -/
def redirectIn (rows : List (Text × Text)) (page : Text) : Option Text :=
  (rows.reverse.find? (·.1 == page)).map Prod.snd

end Wikitext
