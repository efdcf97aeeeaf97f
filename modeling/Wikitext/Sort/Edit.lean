import Wikitext.Sort.Keyword

/-! Changing sort flags step by step. -/

namespace Wikitext

/-- Sort flags as they are given: by their bits or by keywords. -/
inductive FlagsText where
  | bits (b : UInt8)
  | keywords (t : Text)
deriving DecidableEq

def FlagsText.read : FlagsText → Except FlagsError SortFlags
  | bits b => SortFlags.ofBits b
  | keywords t => SortFlags.ofText t

inductive FlagsEdit where
  | setNumeric (on : Bool)
  | setCaseSensitive (on : Bool)
  | setDescending (on : Bool)
  | add (given : FlagsText)
  | replace (given : FlagsText)
  | replaceLenient (t : Text)
deriving DecidableEq

namespace FlagsEdit

def apply (f : SortFlags) : FlagsEdit → Except FlagsError SortFlags
  | setNumeric on => .ok { f with numeric := on }
  | setCaseSensitive on => .ok { f with caseSensitive := on }
  | setDescending on => .ok { f with descending := on }
  | add given => f.union <$> given.read
  | replace given => given.read
  | replaceLenient t => .ok (SortFlags.ofTextLenient t)

/-- An edit that fails changes nothing. -/
def step (f : SortFlags) (e : FlagsEdit) : SortFlags :=
  match e.apply f with
  | .ok g => g
  | .error _ => f

end FlagsEdit

/-- The flags after a sequence of edits, beginning without flags. -/
def SortFlags.ofEdits (es : List FlagsEdit) : SortFlags :=
  es.foldl FlagsEdit.step empty

end Wikitext
