import Wikitext.Text.Basic
import Wikitext.Text.Printable

/-! Texts as they are quoted in log messages. -/

namespace Wikitext

/-- Quotes, backslashes and the named controls carry a backslash; apostrophes do not. A scalar that
would not show, or would join the one before it, is given by its number. -/
def quotedScalar : Char → Text
  | '"' => ['\\', '"']
  | '\\' => ['\\', '\\']
  | '\n' => ['\\', 'n']
  | '\t' => ['\\', 't']
  | '\r' => ['\\', 'r']
  | '\x00' => ['\\', '0']
  | c =>
    if isPrintable c && !isGraphemeExtend c then [c]
    else ['\\', 'u', '{'] ++ Nat.toDigits 16 c.toNat ++ ['}']

def quoted (t : Text) : Text :=
  '"' :: t.flatMap quotedScalar ++ ['"']

end Wikitext
