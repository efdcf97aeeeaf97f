import Wikitext.Sort.Collation

/-! A comparison is a strategy and a direction. -/

namespace Wikitext

/-- A record as log messages show it. -/
def recordText (name : String) (fields : List (String × String)) : String :=
  let shown := fields.map fun (label, value) => label ++ ": " ++ value
  " ".intercalate [name, String.singleton '{', ", ".intercalate shown, String.singleton '}']

inductive Strategy where
  | numeric
  | caseSensitive
  | caseInsensitive
deriving DecidableEq

def Strategy.compare : Strategy → Text → Text → Ordering
  | .numeric => compareNumeric
  | .caseSensitive => compareBytes
  | .caseInsensitive => compareIgnoringCase

def Strategy.name : Strategy → String
  | .numeric => "Numeric"
  | .caseSensitive => "CaseSensitive"
  | .caseInsensitive => "CaseInsensitive"

inductive Direction where
  | ascending
  | descending
deriving DecidableEq

instance : Inhabited Direction := ⟨.ascending⟩

def Direction.apply : Direction → Ordering → Ordering
  | .ascending, o => o
  | .descending, o => o.swap

def Direction.name : Direction → String
  | .ascending => "Ascending"
  | .descending => "Descending"

structure Comparison where
  strategy : Strategy
  direction : Direction
deriving DecidableEq

namespace Comparison

def compare (c : Comparison) (s t : Text) : Ordering :=
  c.direction.apply (c.strategy.compare s t)

def describe (c : Comparison) : String :=
  recordText "Comparison" [("strategy", c.strategy.name), ("order", c.direction.name)]

end Comparison

end Wikitext
