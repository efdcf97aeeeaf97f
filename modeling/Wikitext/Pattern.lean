import Wikitext.Text.Division

/-! Patterns: texts in which a token marks the places for a value. Occurrences of the token are
taken from the left and do not overlap; what is put in is not searched again. -/

namespace Wikitext

namespace Pattern

def defaultToken : Text := ['x']

/-- With the default token this is the value alone. -/
def defaultPattern : Text := ['x']

theorem tokenHere_eq {token t : Text} {a : Unit} {rest : Text}
    (ht : (afterStart? token t).map (Prod.mk ()) = some (a, rest)) : t = token ++ rest := by
  obtain ⟨r, hr, he⟩ := Option.map_eq_some_iff.mp ht
  cases he
  exact afterStart?_eq_some_iff.mp hr

theorem tokenHere_lt {token : Text} (h : token ≠ []) {t : Text} {a : Unit} {rest : Text}
    (ht : (afterStart? token t).map (Prod.mk ()) = some (a, rest)) : rest.length < t.length := by
  have := List.length_pos_iff.mpr h
  rw [tokenHere_eq ht, List.length_append]
  omega

def tokenFinder (token : Text) (h : token ≠ []) : Finder Unit :=
  .leftmost (fun t => (afterStart? token t).map (Prod.mk ())) (tokenHere_lt h)

end Pattern

open Pattern

/-- An empty token occurs nowhere. -/
def applyPattern (value token pattern : Text) : Text :=
  if h : token = [] then pattern
  else ((tokenFinder token h).divide pattern).fill fun _ => value

/-- The index, in decimal, takes the places of its token before the value does, so a value that
contains the index token is left alone. -/
def applyPatternWithIndex (value indexToken : Text) (index : Nat) (token pattern : Text) : Text :=
  applyPattern value token (applyPattern (Nat.toDigits 10 index) indexToken pattern)

theorem applyPattern_nil (value pattern : Text) : applyPattern value [] pattern = pattern :=
  rfl

/-- A token put in its own place changes nothing. -/
theorem applyPattern_token (token pattern : Text) : applyPattern token token pattern = pattern := by
  unfold applyPattern
  split
  · rfl
  · exact Finder.fill_divide (fun h => firstWhere_eq tokenHere_eq h) pattern

end Wikitext
