import Wikitext.Sort.Flags
import Wikitext.Text.Space

/-! Sort flags written as keywords. They are applied from left to right, so that of two keywords
for one flag the later one counts. -/

namespace Wikitext

inductive Keyword where
  | numeric
  | alpha
  | cs
  | ncs
  | desc
  | asc
deriving DecidableEq

namespace Keyword

def all : List Keyword :=
  [numeric, alpha, cs, ncs, desc, asc]

def spelling : Keyword → Text
  | numeric => ['n', 'u', 'm', 'e', 'r', 'i', 'c']
  | alpha => ['a', 'l', 'p', 'h', 'a']
  | cs => ['c', 's']
  | ncs => ['n', 'c', 's']
  | desc => ['d', 'e', 's', 'c']
  | asc => ['a', 's', 'c']

/-- The case of ASCII letters does not matter. -/
def ofWord? (word : Text) : Option Keyword :=
  all.find? fun k => k.spelling == lowerAscii word

def ofWord (word : Text) : Except FlagsError Keyword :=
  match ofWord? word with
  | some k => .ok k
  | none => .error (.unknownKeyword word)

def apply (f : SortFlags) : Keyword → SortFlags
  | numeric => { f with numeric := true }
  | alpha => { f with numeric := false }
  | cs => { f with caseSensitive := true }
  | ncs => { f with caseSensitive := false }
  | desc => { f with descending := true }
  | asc => { f with descending := false }

end Keyword

namespace SortFlags

def ofKeywords (ks : List Keyword) : SortFlags :=
  ks.foldl Keyword.apply empty

/-- The first word that is no keyword is an error. -/
def ofText (t : Text) : Except FlagsError SortFlags :=
  ofKeywords <$> (words t).mapM Keyword.ofWord

/-- Words that are no keywords are passed over. -/
def ofTextLenient (t : Text) : SortFlags :=
  ofKeywords ((words t).filterMap Keyword.ofWord?)

end SortFlags

end Wikitext
