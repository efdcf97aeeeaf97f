import Mathlib.Data.List.Infix
import Wikitext.Pattern
import Wikitext.Proofs.Text.Division

/-! Occurrences of a token in a pattern. They cut the pattern into parts, in one way only: up to
the end of each part but the last the token does not occur before it follows that part. A value is
written between the parts. -/

namespace Wikitext

namespace Pattern

/-- In the part and a token after it, no occurrence of the token starts within the part. -/
def FollowedFirst (token part : Text) : Prop :=
  ∀ before after, part ++ token = before ++ token ++ after → part.length ≤ before.length

structure IsParts (token pattern : Text) (parts : List Text) : Prop where
  ne_nil : parts ≠ []
  join : token.intercalate parts = pattern
  first : ∀ part ∈ parts.dropLast, FollowedFirst token part
  last : ∀ part ∈ parts.getLast?, ¬ token <:+: part

variable {token pattern : Text}

theorem isParts_singleton {part : Text} :
    IsParts token pattern [part] ↔ part = pattern ∧ ¬ token <:+: part := by
  constructor
  · intro h
    exact ⟨by simpa using h.join, h.last part rfl⟩
  · rintro ⟨rfl, h⟩
    exact ⟨List.cons_ne_nil _ _, by simp, by simp, by simpa using h⟩

theorem isParts_cons {part : Text} {parts : List Text} (hne : parts ≠ []) :
    IsParts token pattern (part :: parts) ↔
      ∃ rest, pattern = part ++ token ++ rest ∧ FollowedFirst token part ∧
        IsParts token rest parts := by
  obtain ⟨next, parts, rfl⟩ := List.exists_cons_of_ne_nil hne
  constructor
  · intro h
    refine ⟨token.intercalate (next :: parts), ?_, h.first part (by simp), hne, rfl, ?_, ?_⟩
    · rw [← h.join, List.intercalate_cons_of_ne_nil hne]
    · exact fun p hp => h.first p (by simp [hp])
    · exact fun p hp => h.last p (by simpa using hp)
  · rintro ⟨rest, rfl, hpart, h⟩
    refine ⟨List.cons_ne_nil _ _, ?_, ?_, ?_⟩
    · rw [List.intercalate_cons_of_ne_nil hne, h.join]
    · simpa using ⟨hpart, h.first⟩
    · exact fun p hp => h.last p (by simpa using hp)

/-- No occurrence is complete before the one after the part. -/
theorem followedFirst_iff {part : Text} (hne : token ≠ []) :
    FollowedFirst token part ↔ ¬ token <:+: part ++ token.dropLast := by
  have hpos : 0 < token.length := List.length_pos_iff.mpr hne
  constructor
  · rintro h ⟨before, after, heq⟩
    have hle : part.length ≤ before.length := by
      refine h before (after ++ [token.getLast hne]) ?_
      rw [← List.append_assoc, heq, List.append_assoc, List.dropLast_append_getLast hne]
    have hlength := congrArg List.length heq
    simp only [List.length_append, List.length_dropLast] at hlength
    omega
  · intro h before after heq
    by_contra hlt
    have hafter : after ≠ [] := by
      rintro rfl
      have hlength := congrArg List.length heq
      simp only [List.length_append, List.length_nil] at hlength
      omega
    refine h ⟨before, after.dropLast, ?_⟩
    rw [← List.dropLast_append_of_ne_nil hafter, ← heq, List.dropLast_append_of_ne_nil hne]

instance (token part : Text) : Decidable (FollowedFirst token part) :=
  if hne : token = [] then
    decidable_of_iff (part = []) (by
      constructor
      · rintro rfl before after -
        exact Nat.zero_le _
      · intro h
        exact List.length_eq_zero_iff.mp (Nat.le_zero.mp (h [] part (by simp [hne]))))
  else decidable_of_iff _ (followedFirst_iff hne).symm

instance (token pattern : Text) (parts : List Text) : Decidable (IsParts token pattern parts) :=
  decidable_of_iff (parts ≠ [] ∧ token.intercalate parts = pattern ∧
    (∀ part ∈ parts.dropLast, FollowedFirst token part) ∧
    ∀ part ∈ parts.getLast?, ¬ token <:+: part)
    ⟨fun ⟨hne, hjoin, hfirst, hlast⟩ => ⟨hne, hjoin, hfirst, hlast⟩,
      fun ⟨hne, hjoin, hfirst, hlast⟩ => ⟨hne, hjoin, hfirst, hlast⟩⟩

/-- The part that ends later would have the token of the other one before its end. -/
theorem FollowedFirst.length_le {p q r s : Text} (hq : FollowedFirst token q)
    (h : p ++ token ++ r = q ++ token ++ s) : q.length ≤ p.length := by
  rcases Nat.le_total q.length p.length with hle | hle
  · exact hle
  · have hp : p ++ token <+: q ++ token ++ s := ⟨r, h⟩
    have hlength : (p ++ token).length ≤ (q ++ token).length := by
      simpa using hle
    obtain ⟨after, hafter⟩ := List.prefix_of_prefix_length_le hp (List.prefix_append _ s) hlength
    exact hq p after hafter.symm

theorem FollowedFirst.eq_of_append {p q r s : Text} (hp : FollowedFirst token p)
    (hq : FollowedFirst token q) (h : p ++ token ++ r = q ++ token ++ s) : p = q ∧ r = s := by
  have hlength : p.length = q.length := Nat.le_antisymm (hp.length_le h.symm) (hq.length_le h)
  simp only [List.append_assoc] at h
  obtain ⟨rfl, hrest⟩ := List.append_inj h hlength
  exact ⟨rfl, List.append_cancel_left hrest⟩

theorem IsParts.not_infix_of_singleton {part : Text} (h : IsParts token pattern [part]) :
    ¬ token <:+: pattern := by
  obtain ⟨rfl, hnot⟩ := isParts_singleton.mp h
  exact hnot

theorem IsParts.infix_of_cons {part : Text} {parts : List Text} (hne : parts ≠ [])
    (h : IsParts token pattern (part :: parts)) : token <:+: pattern := by
  obtain ⟨rest, rfl, -, -⟩ := (isParts_cons hne).mp h
  exact ⟨part, rest, rfl⟩

theorem IsParts.unique {parts parts' : List Text} (h : IsParts token pattern parts)
    (h' : IsParts token pattern parts') : parts = parts' := by
  induction parts generalizing pattern parts' with
  | nil => exact absurd rfl h.ne_nil
  | cons part parts ih =>
    obtain ⟨part', parts', rfl⟩ := List.exists_cons_of_ne_nil h'.ne_nil
    by_cases hne : parts = []
    · subst hne
      by_cases hne' : parts' = []
      · subst hne'
        rw [(isParts_singleton.mp h).1, (isParts_singleton.mp h').1]
      · exact absurd (h'.infix_of_cons hne') h.not_infix_of_singleton
    · by_cases hne' : parts' = []
      · subst hne'
        exact absurd (h.infix_of_cons hne) h'.not_infix_of_singleton
      · obtain ⟨rest, hsplit, hpart, hrest⟩ := (isParts_cons hne).mp h
        obtain ⟨rest', hsplit', hpart', hrest'⟩ := (isParts_cons hne').mp h'
        obtain ⟨rfl, rfl⟩ := hpart.eq_of_append hpart' (hsplit.symm.trans hsplit')
        rw [ih hrest hrest']

theorem tokenHere_append (token rest : Text) :
    (afterStart? token (token ++ rest)).map (Prod.mk ()) = some ((), rest) := by
  rw [afterStart?_eq_some_iff.mpr rfl, Option.map_some]

theorem followedFirst_of_tokenFinder (hne : token ≠ []) {o : Occurrence Unit}
    (h : (tokenFinder token hne).first? pattern = some o) : FollowedFirst token o.before := by
  obtain ⟨-, -, -, hleft⟩ := leftmost_of_firstWhere h
  have hpattern : pattern = o.before ++ token ++ o.after := firstWhere_eq tokenHere_eq h
  intro before after heq
  refine hleft before (token ++ (after ++ o.after)) ?_ (by simp [tokenHere_append])
  rw [hpattern, heq]
  simp

theorem not_infix_of_tokenFinder (hne : token ≠ [])
    (h : (tokenFinder token hne).first? pattern = none) : ¬ token <:+: pattern := by
  rintro ⟨before, after, heq⟩
  have hsplit : pattern = before ++ (token ++ after) := by rw [← heq, List.append_assoc]
  have hnone := here?_eq_none_of_firstWhere h hsplit (by simp [hne])
  rw [tokenHere_append] at hnone
  cases hnone

/-- By induction on the length of the pattern, along the search. -/
theorem isParts_divide (hne : token ≠ []) (pattern : Text) :
    IsParts token pattern ((tokenFinder token hne).divide pattern).texts := by
  cases h : (tokenFinder token hne).first? pattern with
  | none =>
    rw [Finder.divide_of_none h, Division.texts_uncut, isParts_singleton]
    exact ⟨rfl, not_infix_of_tokenFinder hne h⟩
  | some o =>
    have hlt := (tokenFinder token hne).after_lt h
    have hrest := isParts_divide hne o.after
    rw [Finder.divide_of_some h, Division.texts_cut, isParts_cons hrest.ne_nil]
    exact ⟨o.after, firstWhere_eq tokenHere_eq h, followedFirst_of_tokenFinder hne h, hrest⟩
termination_by pattern.length

theorem isParts_iff (hne : token ≠ []) {parts : List Text} :
    IsParts token pattern parts ↔ parts = ((tokenFinder token hne).divide pattern).texts := by
  have hdivide := isParts_divide hne pattern
  constructor
  · intro h
    exact h.unique hdivide
  · rintro rfl
    exact hdivide

@[elab_as_elim]
theorem parts_induction (hne : token ≠ []) {motive : Text → Prop}
    (absent : ∀ t, ¬ token <:+: t → motive t)
    (occurrence : ∀ part rest, FollowedFirst token part → motive rest →
      motive (part ++ token ++ rest)) (t : Text) : motive t := by
  have hparts := isParts_divide hne t
  generalize ((tokenFinder token hne).divide t).texts = parts at hparts
  induction parts generalizing t with
  | nil => exact absurd rfl hparts.ne_nil
  | cons part parts ih =>
    by_cases hlast : parts = []
    · subst hlast
      exact absent t hparts.not_infix_of_singleton
    · obtain ⟨rest, rfl, hpart, hrest⟩ := (isParts_cons hlast).mp hparts
      exact occurrence part rest hpart (ih rest hrest)

end Pattern

open Pattern

theorem applyPattern_of_isParts {token pattern : Text} {parts : List Text} (hne : token ≠ [])
    (h : IsParts token pattern parts) (value : Text) :
    applyPattern value token pattern = value.intercalate parts := by
  rw [applyPattern, dif_neg hne, fill_const, h.unique (isParts_divide hne pattern)]

theorem applyPattern_of_absent {token pattern : Text} (h : ¬ token <:+: pattern)
    (value : Text) : applyPattern value token pattern = pattern := by
  by_cases hne : token = []
  · rw [hne, applyPattern_nil]
  · have hparts : IsParts token pattern [pattern] := isParts_singleton.mpr ⟨rfl, h⟩
    rw [applyPattern_of_isParts hne hparts, List.intercalate_singleton]

theorem applyPattern_of_followedFirst {token part : Text} (hne : token ≠ [])
    (h : FollowedFirst token part) (value rest : Text) :
    applyPattern value token (part ++ token ++ rest) =
      part ++ value ++ applyPattern value token rest := by
  have hrest := isParts_divide hne rest
  have hparts := (isParts_cons hrest.ne_nil).mpr ⟨rest, rfl, h, hrest⟩
  rw [applyPattern_of_isParts hne hparts, applyPattern_of_isParts hne hrest,
    List.intercalate_cons_of_ne_nil hrest.ne_nil]

theorem applyPattern_empty (value token : Text) : applyPattern value token [] = [] := by
  by_cases hne : token = []
  · rw [hne, applyPattern_nil]
  · exact applyPattern_of_absent (mt List.infix_nil.mp hne) value

/-- A pattern has one list of parts, and any value is put between them, whatever it contains. -/
theorem applyPattern_by_parts (token pattern : Text) :
    (token ≠ [] → ∃ parts, (∀ ps, IsParts token pattern ps ↔ ps = parts) ∧
      ∀ value, applyPattern value token pattern = value.intercalate parts) ∧
    ∀ value, applyPattern value [] pattern = pattern := by
  refine ⟨fun hne => ?_, fun value => applyPattern_nil value pattern⟩
  have hparts := isParts_divide hne pattern
  exact ⟨_, fun ps => isParts_iff hne, applyPattern_of_isParts hne hparts⟩

/-- Of two overlapping occurrences the left one is taken. -/
theorem applyPattern_by_parts_overlap :
    IsParts ['a', 'b', 'a'] ['c', 'a', 'b', 'a', 'b', 'a'] [['c'], ['b', 'a']] ∧
    ∀ value, applyPattern value ['a', 'b', 'a'] ['c', 'a', 'b', 'a', 'b', 'a'] =
      ['c'] ++ value ++ ['b', 'a'] := by
  have hfirst : FollowedFirst ['a', 'b', 'a'] ['c'] := by
    intro before after h
    cases before with
    | nil => simp at h
    | cons => simp
  have hparts : IsParts ['a', 'b', 'a'] ['c', 'a', 'b', 'a', 'b', 'a'] [['c'], ['b', 'a']] :=
    ⟨by simp, rfl, by simpa using hfirst, by decide⟩
  obtain ⟨parts, hunique, hvalue⟩ :=
    (applyPattern_by_parts ['a', 'b', 'a'] ['c', 'a', 'b', 'a', 'b', 'a']).1 (by decide)
  refine ⟨hparts, fun value => ?_⟩
  rw [hvalue, ← (hunique _).mp hparts]
  simp

end Wikitext
