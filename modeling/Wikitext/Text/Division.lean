import Wikitext.Text.Basic

/-! Dividing a text at every occurrence of something. A finder yields the first occurrence and the
rest of the text, which is shorter; the division repeats it on the rest. Separators, tokens and
links are all found in this way. -/

namespace Wikitext

/-- Something found in a text, between what stands before it and what follows it. -/
structure Occurrence (α : Type) where
  before : Text
  found : α
  after : Text

def Occurrence.push {α : Type} (c : Char) (o : Occurrence α) : Occurrence α :=
  { o with before := c :: o.before }

structure Finder (α : Type) where
  first? : Text → Option (Occurrence α)
  after_lt : ∀ {t o}, first? t = some o → o.after.length < t.length

/-- A text divided at the occurrences of something: each with the text before it, and the text
after the last one. -/
structure Division (α : Type) where
  cuts : List (Text × α)
  last : Text
deriving DecidableEq

namespace Division

variable {α : Type}

def texts (d : Division α) : List Text :=
  d.cuts.map Prod.fst ++ [d.last]

/-- The text with `f` of each occurrence put in its place. -/
def fill (d : Division α) (f : α → Text) : Text :=
  d.cuts.flatMap (fun cut => cut.1 ++ f cut.2) ++ d.last

@[simp] theorem texts_uncut (t : Text) : (⟨[], t⟩ : Division α).texts = [t] :=
  rfl

@[simp] theorem texts_cut (t : Text) (a : α) (cuts : List (Text × α)) (last : Text) :
    (⟨(t, a) :: cuts, last⟩ : Division α).texts = t :: (⟨cuts, last⟩ : Division α).texts :=
  rfl

@[simp] theorem fill_uncut (f : α → Text) (t : Text) : (⟨[], t⟩ : Division α).fill f = t :=
  rfl

@[simp] theorem fill_cut (f : α → Text) (t : Text) (a : α) (cuts : List (Text × α)) (last : Text) :
    (⟨(t, a) :: cuts, last⟩ : Division α).fill f =
      t ++ f a ++ (⟨cuts, last⟩ : Division α).fill f := by
  simp [fill]

end Division

def Finder.divide {α : Type} (f : Finder α) (t : Text) : Division α :=
  match _ : f.first? t with
  | none => ⟨[], t⟩
  | some o =>
    let rest := f.divide o.after
    ⟨(o.before, o.found) :: rest.cuts, rest.last⟩
termination_by t.length
decreasing_by exact f.after_lt ‹_›

/-- The first position of a text at which `here?` recognises something. -/
def firstWhere {α : Type} (here? : Text → Option (α × Text)) : Text → Option (Occurrence α)
  | [] => none
  | c :: t =>
    match here? (c :: t) with
    | some (a, after) => some ⟨[], a, after⟩
    | none => (firstWhere here? t).map (·.push c)

theorem firstWhere_after_lt {α : Type} {here? : Text → Option (α × Text)}
    (hlt : ∀ {t a r}, here? t = some (a, r) → r.length < t.length) {t : Text} {o : Occurrence α}
    (h : firstWhere here? t = some o) : o.after.length < t.length := by
  induction t generalizing o with
  | nil => simp [firstWhere] at h
  | cons c t ih =>
    cases hh : here? (c :: t) with
    | some p =>
      obtain ⟨a, r⟩ := p
      simp only [firstWhere, hh, Option.some.injEq] at h
      subst h
      exact hlt hh
    | none =>
      simp only [firstWhere, hh, Option.map_eq_some_iff] at h
      obtain ⟨o', ho, rfl⟩ := h
      have := ih ho
      exact Nat.lt_succ_of_lt this

/-- The finder of the leftmost match of a recogniser that consumes at least one scalar. -/
def Finder.leftmost {α : Type} (here? : Text → Option (α × Text))
    (hlt : ∀ {t a r}, here? t = some (a, r) → r.length < t.length) : Finder α :=
  ⟨firstWhere here?, firstWhere_after_lt hlt⟩

namespace Finder

variable {α : Type} {f : Finder α} {t : Text}

theorem divide_of_none (h : f.first? t = none) : f.divide t = ⟨[], t⟩ := by
  rw [divide]
  split <;> simp_all

theorem divide_of_some {o : Occurrence α} (h : f.first? t = some o) :
    f.divide t = ⟨(o.before, o.found) :: (f.divide o.after).cuts, (f.divide o.after).last⟩ := by
  rw [divide]
  split <;> simp_all

/-- Nothing is lost: each occurrence written out again gives the text back. -/
theorem fill_divide {spell : α → Text}
    (hf : ∀ {t o}, f.first? t = some o → t = o.before ++ spell o.found ++ o.after) (t : Text) :
    (f.divide t).fill spell = t := by
  cases h : f.first? t with
  | none => rw [divide_of_none h, Division.fill_uncut]
  | some o =>
    have := f.after_lt h
    rw [divide_of_some h, Division.fill_cut, fill_divide hf o.after, ← hf h]
termination_by t.length

end Finder

theorem firstWhere_eq {α : Type} {here? : Text → Option (α × Text)} {spell : α → Text}
    (hspell : ∀ {t a r}, here? t = some (a, r) → t = spell a ++ r) {t : Text} {o : Occurrence α}
    (h : firstWhere here? t = some o) : t = o.before ++ spell o.found ++ o.after := by
  induction t generalizing o with
  | nil => simp [firstWhere] at h
  | cons c t ih =>
    cases hh : here? (c :: t) with
    | some p =>
      obtain ⟨a, r⟩ := p
      simp only [firstWhere, hh, Option.some.injEq] at h
      subst h
      simpa using hspell hh
    | none =>
      simp only [firstWhere, hh, Option.map_eq_some_iff] at h
      obtain ⟨o', ho, rfl⟩ := h
      have := ih ho
      simpa [Occurrence.push] using this

end Wikitext
