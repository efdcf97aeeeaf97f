import Wikitext.Sort.Edit

/-! The order of key/value pairs: by the keys, and where those tie by the values if a value
comparison is configured. -/

namespace Wikitext

abbrev Pair := Text × Text

structure PairOrder where
  key : Comparison
  value : Option Comparison
deriving DecidableEq

namespace PairOrder

def ofFlags (key : SortFlags) (value : Option SortFlags) : PairOrder :=
  ⟨key.comparison, value.map SortFlags.comparison⟩

def byKey (key : SortFlags) : PairOrder :=
  ofFlags key none

/-- Both sides as they are given. A fault of the key's flags is reported before one of the
value's. -/
def read (key : FlagsText) (value : Option FlagsText) : Except FlagsError PairOrder := do
  let k ← key.read
  let v ← value.mapM FlagsText.read
  return ofFlags k v

/-- All values tie when no comparison of values is configured. -/
def compareValues (o : PairOrder) (s t : Text) : Ordering :=
  match o.value with
  | none => .eq
  | some c => c.compare s t

def compare (o : PairOrder) (p q : Pair) : Ordering :=
  (o.key.compare p.1 q.1).then (o.compareValues p.2 q.2)

/-- Pairs that compare equal keep their order. -/
def sort (o : PairOrder) (pairs : List Pair) : List Pair :=
  pairs.mergeSort fun p q => (o.compare p q).isLE

/-- The pairs after each of several sorts in turn. A sort whose flags are at fault changes nothing. -/
def sortInTurn (pairs : List Pair) :
    List (FlagsText × Option FlagsText) → List (Except FlagsError (List Pair))
  | [] => []
  | (key, value) :: rest =>
    match read key value with
    | .ok o => .ok (o.sort pairs) :: sortInTurn (o.sort pairs) rest
    | .error e => .error e :: sortInTurn pairs rest

def describe (o : PairOrder) : String :=
  let value :=
    match o.value with
    | none => "None"
    | some c => "Some(" ++ c.describe ++ ")"
  recordText "SortKeyValueComparator" [("key", o.key.describe), ("value", value)]

end PairOrder

/-- A single sort by the order that the flags of both sides select. -/
def sortPairs (pairs : List Pair) (key : SortFlags) (value : Option SortFlags) : List Pair :=
  (PairOrder.ofFlags key value).sort pairs

end Wikitext
