import Wikitext.Escape.Split

/-! Lists of pairs as texts. An item is an escaped key, an equals sign and an escaped value; the
items are joined by a separator. -/

namespace Wikitext

def writeItem (p : Text × Text) : Text :=
  escape p.1 ++ '=' :: escape p.2

def readItem (t : Text) : Option (Text × Text) :=
  (splitUnescapedOnce '=' t).map fun (key, value) => (unescape key, unescape value)

def writePairs (c : Char) (pairs : List (Text × Text)) : Text :=
  [c].intercalate (pairs.map writeItem)

/-- Items without an unescaped equals sign are passed over. -/
def readPairs (c : Char) (t : Text) : List (Text × Text) :=
  (splitUnescaped c t).filterMap readItem

end Wikitext
