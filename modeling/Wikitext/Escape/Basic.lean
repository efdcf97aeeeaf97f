import Wikitext.Text.Basic

/-! Escape sequences: a backslash, the marker, followed by a designator. Twelve designators stand
for a scalar; unescaping reads them all, escaping writes those for the ten significant scalars, so
a line feed or a space is escaped only by hand. -/

namespace Wikitext

namespace Escape

def marker : Char := '\\'

/-- The scalar that a designator stands for. -/
def literal? : Char → Option Char
  | '\\' => some '\\'
  | 'n' => some '\n'
  | '_' => some ' '
  | '{' => some '{'
  | '}' => some '}'
  | '(' => some '['
  | ')' => some ']'
  | ':' => some ':'
  | '!' => some '|'
  | '=' => some '='
  | '<' => some '<'
  | '>' => some '>'
  | _ => none

def isDesignator (c : Char) : Bool :=
  (literal? c).isSome

/-- The designator under which a significant scalar is written. -/
def designator? : Char → Option Char
  | '\\' => some '\\'
  | '{' => some '{'
  | '}' => some '}'
  | '[' => some '('
  | ']' => some ')'
  | ':' => some ':'
  | '|' => some '!'
  | '=' => some '='
  | '<' => some '<'
  | '>' => some '>'
  | _ => none

def sequence? (c : Char) : Option Text :=
  (designator? c).map fun d => [marker, d]

theorem literal?_of_designator? {c d : Char} (h : designator? c = some d) :
    literal? d = some c := by
  unfold designator? at h
  split at h
  all_goals cases h
  all_goals rfl

end Escape

open Escape

def escape (t : Text) : Text :=
  t.flatMap fun c => (sequence? c).getD [c]

/-- One scan from left to right. A marker before anything but a designator stays, and the scalar
after it is read afresh. -/
def unescape : Text → Text
  | [] => []
  | [c] => [c]
  | c :: d :: t =>
    if c = marker then
      match literal? d with
      | some l => l :: unescape t
      | none => c :: unescape (d :: t)
    else c :: unescape (d :: t)

namespace Escape

theorem escape_cons_of_designator {c d : Char} (h : designator? c = some d) (t : Text) :
    escape (c :: t) = marker :: d :: escape t := by
  simp [escape, sequence?, h]

theorem escape_cons_of_none {c : Char} (h : designator? c = none) (t : Text) :
    escape (c :: t) = c :: escape t := by
  simp [escape, sequence?, h]

theorem escape_append (s t : Text) : escape (s ++ t) = escape s ++ escape t :=
  List.flatMap_append

theorem mem_escape {c : Char} {t : Text} (h : c ∈ escape t) :
    c = marker ∨ ∃ d ∈ t, designator? d = some c ∨ designator? d = none ∧ d = c := by
  obtain ⟨d, hd, hc⟩ := List.mem_flatMap.mp h
  cases he : designator? d with
  | some e =>
    have hpair : c = marker ∨ c = e := by simpa [sequence?, he] using hc
    rcases hpair with hmarker | rfl
    · exact .inl hmarker
    · exact .inr ⟨d, hd, .inl he⟩
  | none =>
    have hcd : c = d := by simpa [sequence?, he] using hc
    exact .inr ⟨d, hd, .inr ⟨he, hcd.symm⟩⟩

theorem unescape_cons_of_ne {c : Char} (h : c ≠ marker) (t : Text) :
    unescape (c :: t) = c :: unescape t := by
  cases t <;> simp [unescape, h]

theorem unescape_pair {d l : Char} (h : literal? d = some l) (t : Text) :
    unescape (marker :: d :: t) = l :: unescape t := by
  simp [unescape, h]

theorem unescape_marker_of_none {d : Char} (h : literal? d = none) (t : Text) :
    unescape (marker :: d :: t) = marker :: unescape (d :: t) := by
  simp [unescape, h]

/-- An escaped text ends between two sequences, so what follows it is read as if it stood alone. -/
theorem unescape_escape_append (s t : Text) : unescape (escape s ++ t) = s ++ unescape t := by
  induction s with
  | nil => rfl
  | cons c s ih =>
    cases h : designator? c with
    | some d =>
      rw [escape_cons_of_designator h, List.cons_append, List.cons_append,
        unescape_pair (literal?_of_designator? h), ih, List.cons_append]
    | none =>
      have hc : c ≠ marker := by
        intro e
        subst e
        cases h
      rw [escape_cons_of_none h, List.cons_append, unescape_cons_of_ne hc, ih, List.cons_append]

theorem unescape_escape (t : Text) : unescape (escape t) = t := by
  simpa [unescape] using unescape_escape_append t []

end Escape

end Wikitext
