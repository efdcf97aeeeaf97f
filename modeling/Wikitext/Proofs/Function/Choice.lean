import Wikitext.Function.Choice
import Wikitext.Function.Switch
import Wikitext.Proofs.Function.Argument

/-! What a choice asks of its page. The arguments that are not chosen are never expanded, so neither
they nor what the page would make of them can show in the result or in what happens. -/

namespace Wikitext

open Script

section Runs

variable (h : MemoryHost) (past : List Event) (args : List Text)

theorem run_chooseNonempty :
    let asked := past ++ (args.take 1).map (.expanded .full)
    let chosen := if trimBlanks (h.answer past args 0) = [] then 2 else 1
    (chooseNonempty args).run h past =
      (asked ++ args[chosen]?.toList.map (.expanded .full),
        unescape (args[chosen]?.elim [] (h.expand asked .full))) := by
  intro asked chosen
  rw [chooseNonempty, run_bind_of_eq h (run_trimmedArgument_zero h past args),
    run_bind_of_eq h (run_argument h asked args chosen), run_pure]

theorem run_chooseEqual :
    let asked := past ++ (args.take 2).map (.expanded .full)
    let chosen := if unescape (trimBlanks (h.answer past args 0)) =
      unescape (trimBlanks (h.answer past args 1)) then 2 else 3
    (chooseEqual args).run h past =
      (asked ++ args[chosen]?.toList.map (.expanded .full),
        unescape (args[chosen]?.elim [] (h.expand asked .full))) := by
  intro asked chosen
  rw [chooseEqual, run_bind_of_eq h (run_trimmedArgument_zero h past args),
    run_bind_of_eq h (run_trimmedArgument_answer h past args 1),
    run_bind_of_eq h (run_argument h asked args chosen), run_pure]

variable {args}

theorem run_chooseFirst_cons (raw : Text) : (chooseFirst (raw :: args)).run h past =
    if trimBlanks (h.expand past .full raw) = [] then
      (chooseFirst args).run h (past ++ [.expanded .full raw])
    else (past ++ [.expanded .full raw], unescape (trimBlanks (h.expand past .full raw))) := by
  rw [chooseFirst, run_bind_of_eq h (run_expandFull h past raw)]
  by_cases hblank : trimBlanks (h.expand past .full raw) = []
  · simp only [hblank, if_true]
  · simp only [hblank, if_false, run_pure]

theorem run_chooseFirst_of_first {k : ℕ} (hfirst : trimBlanks (h.answer past args k) ≠ [])
    (hbefore : ∀ i < k, trimBlanks (h.answer past args i) = []) :
    (chooseFirst args).run h past = (past ++ (args.take (k + 1)).map (.expanded .full),
      unescape (trimBlanks (h.answer past args k))) := by
  -- each blank answer moves one request from the arguments to the past
  induction args generalizing past k with
  | nil =>
    rw [answer_eq_nil h past [] (Nat.zero_le k)] at hfirst
    exact absurd rfl hfirst
  | cons raw args ih =>
    rw [run_chooseFirst_cons]
    cases k with
    | zero =>
      rw [answer_cons_zero] at hfirst ⊢
      rw [if_neg hfirst]
      rfl
    | succ k =>
      have hblank := hbefore 0 (Nat.zero_lt_succ k)
      rw [answer_cons_zero] at hblank
      rw [answer_cons_succ] at hfirst ⊢
      have hrest := ih (past ++ [Event.expanded .full raw]) hfirst fun i hi => by
        rw [← answer_cons_succ]
        exact hbefore (i + 1) (Nat.succ_lt_succ hi)
      rw [if_pos hblank, hrest, List.append_assoc]
      rfl

theorem run_chooseFirst_of_none (hnone : ∀ i < args.length, trimBlanks (h.answer past args i) = []) :
    (chooseFirst args).run h past = (past ++ args.map (.expanded .full), []) := by
  induction args generalizing past with
  | nil => simp [chooseFirst]
  | cons raw args ih =>
    have hblank := hnone 0 (Nat.zero_lt_succ _)
    rw [answer_cons_zero] at hblank
    have hrest := ih (past ++ [Event.expanded .full raw]) fun i hi => by
      rw [← answer_cons_succ]
      exact hnone (i + 1) (Nat.succ_lt_succ hi)
    rw [run_chooseFirst_cons, if_pos hblank, hrest, List.append_assoc]
    rfl

theorem calls_switch (raw next : Text) (rest : List Text) :
    ((switch (raw :: next :: rest)).run h []).1.filterMap Event.call? =
      (raw :: next :: rest).map (Prod.mk ExpandMode.full) := by
  have hasked := run_mapM_expandFull_fst h [.expanded .full raw] (next :: rest)
  simp only [switch, run_bind, run_expandFull, List.nil_append]
  generalize ((next :: rest).mapM expandFull).run h [.expanded .full raw] = asked at hasked ⊢
  have hcalls : asked.1.filterMap Event.call? =
      (raw :: next :: rest).map (Prod.mk ExpandMode.full) := by
    rw [hasked]
    exact filterMap_call?_expanded .full (raw :: next :: rest)
  cases Case.select _ _ with
  | some value => exact hcalls
  | none =>
    rw [run_bind_of_eq h (run_write h _ _), run_pure, List.filterMap_append, hcalls]
    exact List.append_nil _

end Runs

theorem filterMap_range_getElem? {α : Type} (l : List α) (n : ℕ) :
    (List.range n).filterMap (l[·]?) = l.take n := by
  induction n with
  | zero => rfl
  | succ n ih =>
    rw [List.range_succ, List.filterMap_append, ih, List.take_add_one]
    cases h : l[n]? <;> simp [h]

theorem take_eq_of_getElem?_eq {α : Type} {l l' : List α} {n : ℕ}
    (h : ∀ i ∈ List.range n, l'[i]? = l[i]?) : l'.take n = l.take n := by
  rw [← filterMap_range_getElem?, ← filterMap_range_getElem?, List.filterMap_congr h]

/-- The arguments at these places are expanded, in this order, and nothing else is asked for. What
stands at other places, and what the page would answer to anything else, has no influence. -/
structure ExpandsOnly (f : List Text → Script Text) (h : MemoryHost) (args : List Text)
    (places : List ℕ) : Prop where
  calls : ((f args).run h []).1.filterMap Event.call? =
    (places.filterMap (args[·]?)).map (Prod.mk ExpandMode.full)
  blind : ∀ (h' : MemoryHost) (others : List Text), others.length = args.length →
    (∀ i ∈ places, others[i]? = args[i]?) → h.AgreesOn h' [] ((f args).run h []).1 →
      (f others).run h' [] = (f args).run h []

section ExpandsOnly

variable {f : List Text → Script Text} {h : MemoryHost} {args : List Text}

theorem expandsOnly_of_run {places : List ℕ}
    (hcalls : ((f args).run h []).1.filterMap Event.call? =
      (places.filterMap (args[·]?)).map (Prod.mk ExpandMode.full))
    (hblind : ∀ others : List Text, others.length = args.length →
      (∀ i ∈ places, others[i]? = args[i]?) → (f others).run h [] = (f args).run h []) :
    ExpandsOnly f h args places where
  calls := hcalls
  blind := by
    intro h' others hlength hplaces hagree
    have hothers := hblind others hlength hplaces
    rw [← hothers] at hagree
    exact (run_eq_of_agreesOn hagree).trans hothers

theorem expandsOnly_of_chosen {n chosen : ℕ}
    (hrun : ∀ others : List Text, others.take n = args.take n →
      (f others).run h [] =
        ((others.take n).map (.expanded .full) ++ others[chosen]?.toList.map (.expanded .full),
          unescape (others[chosen]?.elim [] (h.expand ((others.take n).map (.expanded .full)) .full)))) :
    ExpandsOnly f h args (List.range n ++ [chosen]) := by
  apply expandsOnly_of_run
  · rw [hrun args rfl, ← List.map_append, filterMap_call?_expanded, List.filterMap_append,
      filterMap_range_getElem?]
    cases hchosen : args[chosen]? <;> simp [hchosen]
  · intro others _ hplaces
    obtain ⟨hbefore, hlast⟩ := List.forall_mem_append.mp hplaces
    have htake := take_eq_of_getElem?_eq hbefore
    have hchosen : others[chosen]? = args[chosen]? := hlast chosen List.mem_cons_self
    rw [hrun others htake, hrun args rfl, htake, hchosen]

theorem expandsOnly_of_all (hcalls : ((f args).run h []).1.filterMap Event.call? =
    args.map (Prod.mk ExpandMode.full)) : ExpandsOnly f h args (List.range args.length) := by
  apply expandsOnly_of_run
  · rw [hcalls, filterMap_range_getElem?, List.take_length]
  · intro others hlength hplaces
    have htake := take_eq_of_getElem?_eq hplaces
    rw [List.take_length, ← hlength, List.take_length] at htake
    rw [htake]

end ExpandsOnly

theorem expandsOnly_chooseNonempty (h : MemoryHost) (args : List Text) :
    ExpandsOnly chooseNonempty h args
      [0, if trimBlanks (h.answer [] args 0) = [] then 2 else 1] := by
  apply expandsOnly_of_chosen (n := 1)
  intro others htake
  rw [← answer_of_take_eq h [] Nat.zero_lt_one htake]
  exact run_chooseNonempty h [] others

theorem expandsOnly_chooseEqual (h : MemoryHost) (args : List Text) :
    ExpandsOnly chooseEqual h args [0, 1, if unescape (trimBlanks (h.answer [] args 0)) =
      unescape (trimBlanks (h.answer [] args 1)) then 2 else 3] := by
  apply expandsOnly_of_chosen (n := 2)
  intro others htake
  rw [← answer_of_take_eq h [] Nat.zero_lt_two htake,
    ← answer_of_take_eq h [] Nat.one_lt_two htake]
  exact run_chooseEqual h [] others

theorem expandsOnly_chooseFirst {h : MemoryHost} {args : List Text} {k : ℕ}
    (hfirst : trimBlanks (h.answer [] args k) ≠ [])
    (hbefore : ∀ i < k, trimBlanks (h.answer [] args i) = []) :
    ExpandsOnly chooseFirst h args (List.range (k + 1)) := by
  apply expandsOnly_of_run
  · rw [run_chooseFirst_of_first h [] hfirst hbefore, filterMap_range_getElem?]
    exact filterMap_call?_expanded .full _
  · intro others _ hplaces
    have htake : others.take (k + 1) = args.take (k + 1) := take_eq_of_getElem?_eq hplaces
    have hanswer : h.answer [] others k = h.answer [] args k :=
      answer_of_take_eq h [] (Nat.lt_succ_self k) htake
    have hothers : trimBlanks (h.answer [] others k) ≠ [] := by rwa [hanswer]
    have hothersBefore : ∀ i < k, trimBlanks (h.answer [] others i) = [] := by
      intro i hi
      rw [answer_of_take_eq h [] (Nat.lt_succ_of_lt hi) htake]
      exact hbefore i hi
    rw [run_chooseFirst_of_first h [] hothers hothersBefore,
      run_chooseFirst_of_first h [] hfirst hbefore, htake, hanswer]

/-- The places expanded by each choice. Which they are hangs on the answers to the arguments before
the chosen one alone. -/
theorem choices_expandOnly (h : MemoryHost) (args : List Text) :
    let value := fun i => trimBlanks (h.answer [] args i)
    ExpandsOnly chooseNonempty h args [0, if value 0 = [] then 2 else 1] ∧
    ExpandsOnly chooseEqual h args
      [0, 1, if unescape (value 0) = unescape (value 1) then 2 else 3] ∧
    (∀ k, value k ≠ [] → (∀ i < k, value i = []) →
      ExpandsOnly chooseFirst h args (List.range (k + 1))) ∧
    ((∀ i < args.length, value i = []) →
      ExpandsOnly chooseFirst h args (List.range args.length)) ∧
    (2 ≤ args.length → ExpandsOnly switch h args (List.range args.length)) := by
  intro value
  refine ⟨expandsOnly_chooseNonempty h args, expandsOnly_chooseEqual h args,
    fun k => expandsOnly_chooseFirst, fun hnone => ?_, fun hlength => ?_⟩
  · apply expandsOnly_of_all
    rw [run_chooseFirst_of_none h [] hnone]
    exact filterMap_call?_expanded .full args
  · apply expandsOnly_of_all
    match args, hlength with
    | raw :: next :: rest, _ => exact calls_switch h raw next rest

/-- A page that answers its first request with nothing. The third argument is never expanded, so
another page that would answer it differently is not told apart. -/
theorem choices_expandOnly_second :
    let h : MemoryHost := ⟨fun past _ raw => if past = [] then [] else raw, fun _ _ => none⟩
    let h' : MemoryHost :=
      ⟨fun past _ raw => if past = [] then [] else if raw = ['z'] then [] else raw, fun _ _ => none⟩
    trimBlanks (h.answer [] [['a'], ['b'], ['c']] 1) ≠ [] ∧
    (∀ i < 1, trimBlanks (h.answer [] [['a'], ['b'], ['c']] i) = []) ∧
    ExpandsOnly chooseFirst h [['a'], ['b'], ['c']] (List.range 2) ∧
    (chooseFirst [['a'], ['b'], ['z']]).run h' [] =
      ([.expanded .full ['a'], .expanded .full ['b']], ['b']) ∧
    (∀ i < 1, trimBlanks (h.answer [] [['a']] i) = []) ∧
    ExpandsOnly chooseFirst h [['a']] (List.range 1) ∧
    ExpandsOnly switch h [['a'], ['b']] (List.range 2) := by
  intro h h'
  obtain ⟨-, -, hfirst, -, -⟩ := choices_expandOnly h [['a'], ['b'], ['c']]
  obtain ⟨-, -, -, hnone, -⟩ := choices_expandOnly h [['a']]
  obtain ⟨-, -, -, -, hswitch⟩ := choices_expandOnly h [['a'], ['b']]
  have hvalue : trimBlanks (h.answer [] [['a'], ['b'], ['c']] 1) ≠ [] := by decide
  have hbefore : ∀ i < 1, trimBlanks (h.answer [] [['a'], ['b'], ['c']] i) = [] := by decide
  have hblank : ∀ i < 1, trimBlanks (h.answer [] [['a']] i) = [] := by decide
  have honly := hfirst 1 hvalue hbefore
  have hagree : h.AgreesOn h' [] [.expanded .full ['a'], .expanded .full ['b']] := by
    intro before e _ he
    have hmem : e ∈ [Event.expanded .full ['a'], .expanded .full ['b']] := he.subset (by simp)
    rcases List.mem_pair.mp hmem with rfl | rfl
    all_goals simp [MemoryHost.AnswersAlike, h, h']
  exact ⟨hvalue, hbefore, honly, honly.blind h' _ rfl (by decide) hagree, hblank, hnone hblank,
    hswitch le_rfl⟩

end Wikitext
