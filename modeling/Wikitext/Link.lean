import Wikitext.Text.Division

/-! Internal links, `[[page]]` or `[[page|label]]`. A link ends at the first `]]` after its start
and stays on one line. -/

namespace Wikitext

namespace Link

/-- What stands before the first `]]` of the line, and what follows it. -/
def close? : Text → Option (Text × Text)
  | [] => none
  | '\n' :: _ => none
  | ']' :: ']' :: rest => some ([], rest)
  | c :: t => (close? t).map fun p => (c :: p.1, p.2)

/-- The inner text of the link with which a text begins, and what follows that link. -/
def here? : Text → Option (Text × Text)
  | '[' :: '[' :: t => close? t
  | _ => none

theorem close?_eq {t inner rest : Text} (h : close? t = some (inner, rest)) :
    t = inner ++ ']' :: ']' :: rest := by
  fun_induction close? t generalizing inner with
  | case1 => cases h
  | case2 => cases h
  | case3 => cases h; rfl
  | case4 c t _ _ ih =>
    obtain ⟨p, hp, he⟩ := Option.map_eq_some_iff.mp h
    cases he
    rw [ih hp, List.cons_append]

def spell (inner : Text) : Text :=
  ['[', '['] ++ inner ++ [']', ']']

theorem here?_eq {t inner rest : Text} (h : here? t = some (inner, rest)) :
    t = spell inner ++ rest := by
  unfold here? at h
  split at h
  · simpa [spell] using close?_eq h
  · cases h

theorem here?_lt {t inner rest : Text} (h : here? t = some (inner, rest)) :
    rest.length < t.length := by
  rw [here?_eq h]
  simp [spell]
  omega

def finder : Finder Text :=
  .leftmost here? here?_lt

def page (inner : Text) : Text :=
  ((cutAt '|' inner).map Prod.fst).getD inner

/-- Only the first bar separates; a label may contain more of them. -/
def label (inner : Text) : Text :=
  ((cutAt '|' inner).map Prod.snd).getD inner

end Link

/-- The text with `f` of its inner text in the place of each link. -/
def replaceLinks (f : Text → Text) (t : Text) : Text :=
  (Link.finder.divide t).fill f

theorem replaceLinks_spell (t : Text) : replaceLinks Link.spell t = t :=
  Finder.fill_divide (fun h => firstWhere_eq Link.here?_eq h) t

end Wikitext
