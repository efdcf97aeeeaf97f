/-! Texts are lists of Unicode scalars. What counts or orders bytes goes through the UTF-8
encoding. -/

namespace Wikitext

abbrev Text := List Char

def utf8 (t : Text) : List UInt8 :=
  t.flatMap String.utf8EncodeChar

def utf8Length : Text → Nat
  | [] => 0
  | c :: t => c.utf8Size + utf8Length t

/-- Only `A` to `Z` change. -/
def lowerAscii (t : Text) : Text :=
  t.map Char.toLower

def trimWhere (p : Char → Bool) (t : Text) : Text :=
  ((t.dropWhile p).reverse.dropWhile p).reverse

/-- What stands before the first `c`, and what follows it. -/
def cutAt (c : Char) (t : Text) : Option (Text × Text) :=
  match t.dropWhile (· != c) with
  | [] => none
  | _ :: after => some (t.takeWhile (· != c), after)

/-- What follows `start` in a text that begins with it. -/
def afterStart? : Text → Text → Option Text
  | [], t => some t
  | _ :: _, [] => none
  | c :: start, d :: t => if c = d then afterStart? start t else none

/-- A text divided at an offset in bytes, which has to lie between two scalars. -/
def divideAtByte? : Nat → Text → Option (Text × Text)
  | 0, t => some ([], t)
  | _ + 1, [] => none
  | n + 1, c :: t =>
    if c.utf8Size ≤ n + 1 then
      (divideAtByte? (n + 1 - c.utf8Size) t).map fun (before, after) => (c :: before, after)
    else none

theorem length_utf8 (t : Text) : (utf8 t).length = utf8Length t := by
  induction t with
  | nil => rfl
  | cons c t ih => simpa [utf8, utf8Length] using ih

@[simp] theorem utf8Length_append (s t : Text) :
    utf8Length (s ++ t) = utf8Length s + utf8Length t := by
  induction s with
  | nil => simp [utf8Length]
  | cons c s ih => simp [utf8Length, ih, Nat.add_assoc]

theorem divideAtByte?_append (s t : Text) :
    divideAtByte? (utf8Length s) (s ++ t) = some (s, t) := by
  induction s with
  | nil => simp [utf8Length, divideAtByte?]
  | cons c s ih =>
    obtain ⟨n, hn⟩ : ∃ n, c.utf8Size = n + 1 := ⟨c.utf8Size - 1, by
      have hpos := c.utf8Size_pos
      omega⟩
    have hlength : utf8Length (c :: s) = n + utf8Length s + 1 := by
      simp only [utf8Length, hn]
      omega
    have hrest : n + utf8Length s + 1 - c.utf8Size = utf8Length s := by omega
    have hle : c.utf8Size ≤ n + utf8Length s + 1 := by omega
    rw [hlength, List.cons_append, divideAtByte?, if_pos hle, hrest, ih]
    rfl

theorem afterStart?_eq_some_iff {start t rest : Text} :
    afterStart? start t = some rest ↔ t = start ++ rest := by
  induction start generalizing t with
  | nil => simp [afterStart?]
  | cons c start ih =>
    cases t with
    | nil => simp [afterStart?]
    | cons d t =>
      by_cases h : c = d
      · simp [afterStart?, h, ih]
      · simp [afterStart?, h, Ne.symm h]

theorem cutAt_eq_none_iff {c : Char} {t : Text} : cutAt c t = none ↔ c ∉ t := by
  have h : cutAt c t = none ↔ t.dropWhile (· != c) = [] := by
    unfold cutAt
    split <;> simp_all
  rw [h]
  clear h
  induction t with
  | nil => simp
  | cons d t ih =>
    by_cases hd : d = c
    · simp [hd]
    · simp [hd, Ne.symm hd, ih]

theorem cutAt_append_cons {c : Char} {before : Text} (h : c ∉ before) (after : Text) :
    cutAt c (before ++ c :: after) = some (before, after) := by
  have hne : ∀ d ∈ before, (d != c) = true := fun d hd => by
    have : d ≠ c := fun e => h (e ▸ hd)
    simp [this]
  simp [cutAt, List.dropWhile_append_of_pos hne, List.takeWhile_append_of_pos hne]

end Wikitext
