import Wikitext.Link
import Wikitext.Proofs.Text.Division

/-! The links of a text. The first link starts at the leftmost two brackets that are closed on
their line and ends where they are closed first, and the search goes on after it. So every text has
one division at its links. -/

namespace Wikitext

namespace Link

/-- Brackets closed somewhere on their line, whether or not they make a link. -/
structure Bracketed (t before inner after : Text) : Prop where
  eq : t = before ++ spell inner ++ after
  line : '\n' ∉ inner

theorem Bracketed.eq_before {t before inner after : Text} (h : Bracketed t before inner after) :
    t = before ++ (spell inner ++ after) := by
  rw [← List.append_assoc, ← h.eq]

structure IsFirst (t before inner after : Text) : Prop extends Bracketed t before inner after where
  leftmost : ∀ b i a, Bracketed t b i a → before.length ≤ b.length
  shortest : ∀ i a, Bracketed t before i a → inner.length ≤ i.length

inductive IsDivision : Text → Division Text → Prop where
  | last {t : Text} (h : ∀ b i a, ¬ Bracketed t b i a) : IsDivision t ⟨[], t⟩
  | link {t before inner after : Text} {d : Division Text} (h : IsFirst t before inner after)
    (rest : IsDivision after d) : IsDivision t ⟨(before, inner) :: d.cuts, d.last⟩

theorem close?_shortest {t inner rest : Text} (h : close? t = some (inner, rest)) :
    '\n' ∉ inner ∧
      ∀ i r, t = i ++ ']' :: ']' :: r → '\n' ∉ i → inner.length ≤ i.length := by
  fun_induction close? t generalizing inner with
  | case1 => cases h
  | case2 => cases h
  | case3 rest' =>
    cases h
    exact ⟨List.not_mem_nil, fun i r _ _ => Nat.zero_le _⟩
  | case4 c t hnewline hclosed ih =>
    obtain ⟨p, hp, he⟩ := Option.map_eq_some_iff.mp h
    cases he
    obtain ⟨hline, hleast⟩ := ih hp
    refine ⟨by simp [Ne.symm hnewline, hline], fun i r ht hi => ?_⟩
    cases i with
    | nil =>
      obtain ⟨hc, ht'⟩ := List.cons.inj ht
      exact (hclosed r hc ht').elim
    | cons d i =>
      have ht' : t = i ++ ']' :: ']' :: r := (List.cons.inj ht).2
      have hi' : '\n' ∉ i := fun hm => hi (List.mem_cons_of_mem d hm)
      exact Nat.succ_le_succ (hleast i r ht' hi')

theorem newline_mem_of_close? {t i r : Text} (h : close? t = none)
    (ht : t = i ++ ']' :: ']' :: r) : '\n' ∈ i := by
  fun_induction close? t generalizing i with
  | case1 => simp at ht
  | case2 t =>
    cases i with
    | nil => cases ht
    | cons d i =>
      rw [← (List.cons.inj ht).1]
      exact List.mem_cons_self
  | case3 => cases h
  | case4 c t hnewline hclosed ih =>
    cases i with
    | nil =>
      obtain ⟨hc, ht'⟩ := List.cons.inj ht
      exact (hclosed r hc ht').elim
    | cons d i =>
      have hmem : '\n' ∈ i := ih (Option.map_eq_none_iff.mp h) (List.cons.inj ht).2
      exact List.mem_cons_of_mem d hmem

theorem here?_spell_append (i r : Text) :
    here? (spell i ++ r) = close? (i ++ ']' :: ']' :: r) := by
  simp [here?, spell]

theorem here?_spell_append_ne_none {i : Text} (hi : '\n' ∉ i) (r : Text) :
    here? (spell i ++ r) ≠ none := by
  rw [here?_spell_append]
  exact fun h => hi (newline_mem_of_close? h rfl)

theorem isFirst_of_firstWhere {t : Text} {o : Occurrence Text} (h : firstWhere here? t = some o) :
    IsFirst t o.before o.found o.after := by
  obtain ⟨s, ht, hs, hleft⟩ := leftmost_of_firstWhere h
  have hspell : s = spell o.found ++ o.after := here?_eq hs
  rw [hspell, here?_spell_append] at hs
  obtain ⟨hline, hleast⟩ := close?_shortest hs
  refine ⟨⟨by rw [ht, hspell, List.append_assoc], hline⟩, fun b i a hb => ?_, fun i a hi => ?_⟩
  · exact hleft b _ hb.eq_before (here?_spell_append_ne_none hb.line a)
  · have hrest : spell o.found ++ o.after = spell i ++ a := by
      have heq : o.before ++ s = o.before ++ (spell i ++ a) := by
        rw [← ht, hi.eq_before]
      rw [← hspell, List.append_cancel_left heq]
    refine hleast i a ?_ hi.line
    simpa [spell] using hrest

theorem not_bracketed_of_firstWhere {t : Text} (h : firstWhere here? t = none) (b i a : Text) :
    ¬ Bracketed t b i a := by
  intro hb
  apply here?_spell_append_ne_none hb.line a
  exact here?_eq_none_of_firstWhere h hb.eq_before (by simp [spell])

theorem IsFirst.unique {t b i a b' i' a' : Text} (h : IsFirst t b i a) (h' : IsFirst t b' i' a') :
    b = b' ∧ i = i' ∧ a = a' := by
  have hbefore : b.length = b'.length :=
    Nat.le_antisymm (h.leftmost b' i' a' h'.toBracketed) (h'.leftmost b i a h.toBracketed)
  have ht : b ++ (spell i ++ a) = b' ++ (spell i' ++ a') :=
    h.eq_before.symm.trans h'.eq_before
  -- with one start for both, the texts between the brackets compete for the shortest
  obtain ⟨rfl, hspell⟩ := List.append_inj ht hbefore
  have hinner : i.length = i'.length :=
    Nat.le_antisymm (h.shortest i' a' h'.toBracketed) (h'.shortest i a h.toBracketed)
  have hrest : i ++ ']' :: ']' :: a = i' ++ ']' :: ']' :: a' := by simpa [spell] using hspell
  obtain ⟨rfl, hafter⟩ := List.append_inj hrest hinner
  exact ⟨rfl, rfl, by simpa using hafter⟩

theorem isDivision_divide (t : Text) : IsDivision t (finder.divide t) := by
  cases h : finder.first? t with
  | none =>
    rw [Finder.divide_of_none h]
    exact .last (not_bracketed_of_firstWhere h)
  | some o =>
    have hlt := finder.after_lt h
    rw [Finder.divide_of_some h]
    exact .link (isFirst_of_firstWhere h) (isDivision_divide o.after)
termination_by t.length

theorem IsDivision.eq_divide {t : Text} {d : Division Text} (hd : IsDivision t d) :
    d = finder.divide t := by
  induction hd with
  | @last t hnone =>
    cases h : finder.first? t with
    | none => rw [Finder.divide_of_none h]
    | some o => exact absurd (isFirst_of_firstWhere h).toBracketed (hnone _ _ _)
  | @link t before inner after d hfirst _ ih =>
    cases h : finder.first? t with
    | none => exact absurd hfirst.toBracketed (not_bracketed_of_firstWhere h _ _ _)
    | some o =>
      obtain ⟨rfl, rfl, rfl⟩ := hfirst.unique (isFirst_of_firstWhere h)
      rw [Finder.divide_of_some h, ← ih]

theorem replaceLinks_of_isDivision {t : Text} {d : Division Text} (hd : IsDivision t d)
    (f : Text → Text) : replaceLinks f t = d.fill f := by
  rw [replaceLinks, hd.eq_divide]

theorem page_label_of_notMem {inner : Text} (h : '|' ∉ inner) :
    page inner = inner ∧ label inner = inner := by
  simp [page, label, cutAt_eq_none_iff.mpr h]

theorem page_label_of_bar {before : Text} (h : '|' ∉ before) (after : Text) :
    page (before ++ '|' :: after) = before ∧ label (before ++ '|' :: after) = after := by
  simp [page, label, cutAt_append_cons h]

end Link

end Wikitext
