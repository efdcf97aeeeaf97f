import Wikitext.Number.Binary64
import Wikitext.Text.Space

/-! Numbers as they are read from texts: integers of any size, and finite floats. -/

namespace Wikitext

inductive Number where
  | integer (value : Int)
  | float (value : Binary64)
deriving DecidableEq

namespace Number

/-- White space around a numeral is ignored. What is not finite is no number. -/
def ofText? (t : Text) : Option Number :=
  let t := trimSpace t
  ((Numeral.integer? t).map .integer).or
    (((Binary64.Datum.ofText? t).bind Binary64.Datum.finite?).map .float)

/-- An integer is compared with the floor of a float, read from its digits, and is less when equal
to the floor of a float that has a fraction. It ties with a datum whose floor cannot be read. -/
def compareIntegerFloat (n : Int) (x : Binary64.Datum) : Ordering :=
  match Numeral.integer? x.floorText with
  | some floor => (Ord.compare n floor).then (if x.exceedsFloor then .lt else .eq)
  | none => .eq

/-- Data that are not compared would tie. -/
def compareFloats (x y : Binary64.Datum) : Ordering :=
  (x.compare? y).getD .eq

def compare : Number → Number → Ordering
  | .integer m, .integer n => Ord.compare m n
  | .integer m, .float y => compareIntegerFloat m (.finite y)
  | .float x, .integer n => (compareIntegerFloat n (.finite x)).swap
  | .float x, .float y => compareFloats (.finite x) (.finite y)

end Number

end Wikitext
