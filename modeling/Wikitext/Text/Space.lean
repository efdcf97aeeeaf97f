import Wikitext.Text.Basic

/-! The two classes of white space. Numbers and keywords are surrounded by any scalar with the
Unicode property White_Space; arguments of wiki functions lose ASCII blanks only, so a no-break
space at their ends survives. -/

namespace Wikitext

/-- The Unicode property White_Space. -/
def isSpace (c : Char) : Bool :=
  let n := c.toNat
  (0x9 ≤ n && n ≤ 0xD) || n == 0x20 || n == 0x85 || n == 0xA0 || n == 0x1680 ||
    (0x2000 ≤ n && n ≤ 0x200A) || n == 0x2028 || n == 0x2029 || n == 0x202F || n == 0x205F ||
    n == 0x3000

/-- Space, tab, line feed, carriage return, NUL and vertical tab. A form feed is no blank. -/
def isBlank (c : Char) : Bool :=
  c == ' ' || c == '\t' || c == '\n' || c == '\r' || c == '\x00' || c == '\x0b'

def trimSpace (t : Text) : Text :=
  trimWhere isSpace t

def trimBlanks (t : Text) : Text :=
  trimWhere isBlank t

/-- The longest runs without white space. -/
def words (t : Text) : List Text :=
  (t.splitOnP isSpace).filter (· ≠ [])

end Wikitext
