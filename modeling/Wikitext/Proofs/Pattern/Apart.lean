import Wikitext.Proofs.Pattern

/-! Texts apart from a token. No occurrence of the token reaches across a text that shares no scalar
with it, so what stands before such a text and what follows it are searched and filled each by
itself. -/

namespace Wikitext

namespace Pattern

variable {token : Text}

structure Apart (token d : Text) : Prop where
  ne_nil : d ≠ []
  disjoint : List.Disjoint d token

theorem infix_append_cons_iff {c : Char} (hc : c ∉ token) (s t : Text) :
    token <:+: s ++ c :: t ↔ token <:+: s ∨ token <:+: t := by
  constructor
  · intro h
    rcases List.infix_append_iff.mp h with hs | ht | ⟨start, rest, rfl, hstart, hrest⟩
    · exact .inl hs
    · rcases List.infix_cons_iff.mp ht with hprefix | ht
      · rcases List.prefix_cons_iff.mp hprefix with rfl | ⟨rest, rfl, -⟩
        · exact .inl List.nil_infix
        · exact absurd List.mem_cons_self hc
      · exact .inr ht
    · rcases List.prefix_cons_iff.mp hrest with rfl | ⟨rest, rfl, -⟩
      · rw [List.append_nil]
        exact .inl hstart.isInfix
      · exact absurd (by simp) hc
  · rintro (hs | ht)
    · exact List.infix_append_of_infix_left hs
    · exact ht.trans ((List.suffix_cons c t).trans (List.suffix_append s _)).isInfix

theorem infix_append_of_disjoint {d : Text} (hne : token ≠ []) (h : List.Disjoint d token)
    (t : Text) : token <:+: d ++ t ↔ token <:+: t := by
  induction d with
  | nil => rfl
  | cons c d ih =>
    obtain ⟨hc, hd⟩ := List.disjoint_cons_left.mp h
    have hcons := infix_append_cons_iff hc [] (d ++ t)
    rw [List.infix_nil, or_iff_right hne, List.nil_append] at hcons
    exact hcons.trans (ih hd)

namespace Apart

variable {d : Text}

theorem infix_iff (hne : token ≠ []) (h : Apart token d) (s t : Text) :
    token <:+: s ++ d ++ t ↔ token <:+: s ∨ token <:+: t := by
  obtain ⟨c, d, rfl⟩ := List.exists_cons_of_ne_nil h.ne_nil
  obtain ⟨hc, hd⟩ := List.disjoint_cons_left.mp h.disjoint
  rw [List.append_assoc, List.cons_append, infix_append_cons_iff hc,
    infix_append_of_disjoint hne hd]

theorem infix_intercalate_iff (hne : token ≠ []) (h : Apart token d) (parts : List Text) :
    token <:+: d.intercalate parts ↔ ∃ part ∈ parts, token <:+: part := by
  induction parts with
  | nil => simp [hne]
  | cons part parts ih =>
    by_cases hlast : parts = []
    · simp [hlast]
    · rw [List.intercalate_cons_of_ne_nil hlast, h.infix_iff hne, ih, List.exists_mem_cons_iff]

theorem followedFirst_append (hne : token ≠ []) (h : Apart token d) {s part : Text}
    (hs : ¬ token <:+: s) (hpart : FollowedFirst token part) :
    FollowedFirst token (s ++ d ++ part) := by
  rw [followedFirst_iff hne] at hpart ⊢
  rw [List.append_assoc, h.infix_iff hne]
  exact not_or.mpr ⟨hs, hpart⟩

end Apart

end Pattern

open Pattern

variable {token : Text}

namespace Pattern.Apart

variable {d : Text}

/-- By induction along the parts before `d`. The last of them goes on to the first occurrence
after `d`. -/
theorem applyPattern_append (h : Apart token d) (value s t : Text) :
    applyPattern value token (s ++ d ++ t) =
      applyPattern value token s ++ d ++ applyPattern value token t := by
  by_cases hne : token = []
  · subst hne
    simp only [applyPattern_nil]
  · induction s using parts_induction hne with
    | absent s hs =>
      rw [applyPattern_of_absent hs]
      induction t using parts_induction hne with
      | absent t ht =>
        have hnone : ¬ token <:+: s ++ d ++ t := mt (h.infix_iff hne s t).mp (not_or.mpr ⟨hs, ht⟩)
        rw [applyPattern_of_absent hnone, applyPattern_of_absent ht]
      | occurrence part rest hpart =>
        have hsplit : s ++ d ++ (part ++ token ++ rest) = s ++ d ++ part ++ token ++ rest := by simp
        rw [hsplit, applyPattern_of_followedFirst hne (h.followedFirst_append hne hs hpart),
          applyPattern_of_followedFirst hne hpart]
        simp
    | occurrence part rest hpart ih =>
      have hsplit : part ++ token ++ rest ++ d ++ t = part ++ token ++ (rest ++ d ++ t) := by simp
      rw [hsplit, applyPattern_of_followedFirst hne hpart,
        applyPattern_of_followedFirst hne hpart, ih]
      simp

theorem applyPattern_intercalate (h : Apart token d) (value : Text) (parts : List Text) :
    applyPattern value token (d.intercalate parts) =
      d.intercalate (parts.map (applyPattern value token)) :=
  intercalate_map_of_append (applyPattern_empty value token)
    fun part _ rest => h.applyPattern_append value part rest

end Pattern.Apart

theorem applyPattern_append_right {d : Text} (h : List.Disjoint d token) (value s : Text) :
    applyPattern value token (s ++ d) = applyPattern value token s ++ d := by
  by_cases hempty : d = []
  · rw [hempty, List.append_nil, List.append_nil]
  · have hapart : Apart token d := ⟨hempty, h⟩
    have happend := hapart.applyPattern_append value s []
    rwa [applyPattern_empty, List.append_nil, List.append_nil] at happend

end Wikitext
