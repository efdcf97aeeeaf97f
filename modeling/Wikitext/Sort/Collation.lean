import Wikitext.Number.Basic

/-! The three orders of texts. Numbers stand before all other texts in the numeric order, and
texts that are no numbers keep their byte order, surrounding space included. -/

namespace Wikitext

def compareBytes (s t : Text) : Ordering :=
  compare (utf8 s) (utf8 t)

def lowerByte (b : UInt8) : UInt8 :=
  if 0x41 ≤ b ∧ b ≤ 0x5A then b + 0x20 else b

/-- Bytes outside ASCII are compared as they are. -/
def compareIgnoringCase (s t : Text) : Ordering :=
  compare ((utf8 s).map lowerByte) ((utf8 t).map lowerByte)

def compareNumeric (s t : Text) : Ordering :=
  match Number.ofText? s, Number.ofText? t with
  | some m, some n => m.compare n
  | some _, none => .lt
  | none, some _ => .gt
  | none, none => compareBytes s t

end Wikitext
