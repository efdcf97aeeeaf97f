import Wikitext.Function.Argument
import Wikitext.Function.Content
import Wikitext.Proofs.Escape.Blank
import Wikitext.Proofs.Escape.Written
import Wikitext.Proofs.Host.Tables
import Wikitext.Proofs.Link

/-! The text between two tags. Links are replaced at the places where a text has them, and escaped
content passes unchanged through a page that expands only what stands in two braces. -/

namespace Wikitext

open Escape Script

theorem run_renderLinks (h : MemoryHost) (past : List Event) (f : Text → Text) (content : Text) :
    let t := h.expand past .full content
    (renderLinks f content).run h past = (past ++ [.expanded .full content],
      if t = [] ∨ t = ['0'] then [] else replaceLinks f t) := by
  intro t
  rw [renderLinks, run_bind_of_eq h (run_expandFull h past content), run_pure]

/-- Both functions see the same links, those of the one division of the expanded content. -/
theorem linkPages_linkLabels_by_division (h : MemoryHost) (past : List Event) (content : Text) :
    let t := h.expand past .full content
    let asked := past ++ [.expanded .full content]
    (∃! d, Link.IsDivision t d) ∧
    (∀ d, Link.IsDivision t d → d.fill Link.spell = t ∧
      (t ≠ [] → t ≠ ['0'] →
        (linkPages content).run h past = (asked, d.fill Link.page) ∧
        (linkLabels content).run h past = (asked, d.fill Link.label))) ∧
    (t = [] ∨ t = ['0'] →
      (linkPages content).run h past = (asked, []) ∧
      (linkLabels content).run h past = (asked, [])) ∧
    (∀ inner : Text, '|' ∉ inner → Link.page inner = inner ∧ Link.label inner = inner) ∧
    ∀ before after : Text, '|' ∉ before → Link.page (before ++ '|' :: after) = before ∧
      Link.label (before ++ '|' :: after) = after := by
  intro t asked
  have hrun : ∀ f, (renderLinks f content).run h past =
      (asked, if t = [] ∨ t = ['0'] then [] else replaceLinks f t) :=
    fun f => run_renderLinks h past f content
  refine ⟨⟨_, Link.isDivision_divide t, fun d hd => hd.eq_divide⟩, fun d hd => ⟨?_, ?_⟩, ?_,
    fun inner => Link.page_label_of_notMem, fun before after hb => Link.page_label_of_bar hb after⟩
  · rw [← Link.replaceLinks_of_isDivision hd, replaceLinks_spell]
  · intro hnil hzero
    have hfull : ∀ f, (renderLinks f content).run h past = (asked, d.fill f) := by
      intro f
      rw [hrun, if_neg (not_or.mpr ⟨hnil, hzero⟩), Link.replaceLinks_of_isDivision hd]
    exact ⟨hfull Link.page, hfull Link.label⟩
  · intro hempty
    have hnone : ∀ f, (renderLinks f content).run h past = (asked, []) := by
      intro f
      rw [hrun, if_pos hempty]
    exact ⟨hnone Link.page, hnone Link.label⟩

/-- A line feed cancels the first brackets, and of three closing brackets the first two count. -/
theorem linkPages_linkLabels_line_feed :
    Link.IsDivision ['[', '[', '\n', '[', '[', 'a', '|', 'b', ']', ']', ']']
      ⟨[(['[', '[', '\n'], ['a', '|', 'b'])], [']']⟩ ∧
    (linkPages ['[', '[', '\n', '[', '[', 'a', '|', 'b', ']', ']', ']']).run
      Host.verbatim.withMemory [] =
        ([.expanded .full ['[', '[', '\n', '[', '[', 'a', '|', 'b', ']', ']', ']']],
          ['[', '[', '\n', 'a', ']']) ∧
    (linkLabels ['0']).run Host.verbatim.withMemory [] = ([.expanded .full ['0']], []) ∧
    '|' ∉ ['a'] ∧ Link.page ['a'] = ['a'] ∧ Link.label ['a', '|', 'b'] = ['b'] := by
  have hfirst : firstWhere Link.here? ['[', '[', '\n', '[', '[', 'a', '|', 'b', ']', ']', ']'] =
      some ⟨['[', '[', '\n'], ['a', '|', 'b'], [']']⟩ := rfl
  have hlast : firstWhere Link.here? [']'] = none := rfl
  have hdivision : Link.IsDivision ['[', '[', '\n', '[', '[', 'a', '|', 'b', ']', ']', ']']
      ⟨[(['[', '[', '\n'], ['a', '|', 'b'])], [']']⟩ :=
    .link (Link.isFirst_of_firstWhere hfirst) (.last (Link.not_bracketed_of_firstWhere hlast))
  have hbar : '|' ∉ ['a'] := by decide
  obtain ⟨-, hlinks, -, hbare, hparts⟩ := linkPages_linkLabels_by_division Host.verbatim.withMemory []
    ['[', '[', '\n', '[', '[', 'a', '|', 'b', ']', ']', ']']
  obtain ⟨-, -, hzero, -⟩ := linkPages_linkLabels_by_division Host.verbatim.withMemory [] ['0']
  exact ⟨hdivision, ((hlinks _ hdivision).2 (by decide) (by decide)).1, (hzero (.inr rfl)).2, hbar,
    (hbare _ hbar).1, (hparts ['a'] ['b'] hbar).2⟩

theorem replaceLinks_escape (f : Text → Text) (t : Text) :
    replaceLinks f (escape t) = escape t := by
  have hnone : ∀ b i a, ¬ Link.Bracketed (escape t) b i a := by
    intro b i a hb
    apply bracket_notMem_escape t
    rw [hb.eq]
    simp [Link.spell]
  rw [Link.replaceLinks_of_isDivision (.last hnone), Division.fill_uncut]

theorem result_renderLinks_escape (f : Text → Text) (t : Text) :
    (renderLinks f (escape t)).result .verbatim = if t = ['0'] then [] else escape t := by
  have hnil : escape t = [] ↔ t = [] := escape_injective.eq_iff' rfl
  have hzero : escape t = ['0'] ↔ t = ['0'] := escape_injective.eq_iff' rfl
  change (if escape t = [] ∨ escape t = ['0'] then [] else replaceLinks f (escape t)) = _
  simp only [hnil, hzero, replaceLinks_escape]
  by_cases ht : t = []
  · subst ht
    rfl
  · simp [ht]

/-- Escaped content is expanded to itself, shows no link, and gives the content back but for the
blanks around it. -/
theorem escapeContent_inert :
    (∀ (tables : HostTables) (redirect? : Text → Option Text),
      (Host.mk tables.expand redirect?).withMemory.NeedsBraces) ∧
    ∀ h : MemoryHost, h.NeedsBraces → ∀ (past : List Event) (content : Text),
      (escapeContent content).run h past =
        (past ++ [.expanded .full (escape content)], escape content) ∧
      (unescapeTrimmed [escape content]).result .verbatim = trimBlanks content ∧
      (trimUnescaped [escape content]).result .verbatim = trimBlanks content ∧
      (linkPages (escape content)).result .verbatim =
        (if content = ['0'] then [] else escape content) ∧
      (linkLabels (escape content)).result .verbatim =
        (if content = ['0'] then [] else escape content) := by
  refine ⟨needsBraces_tables, fun h hbraces past content => ⟨?_, ?_, ?_,
    result_renderLinks_escape Link.page content, result_renderLinks_escape Link.label content⟩⟩
  · have hinert := hbraces past .full (escape content) (written_escape content).not_infix_braces
    rw [escapeContent, run_expandFull, hinert]
  · exact unescape_trimBlanks_escape content
  · exact congrArg trimBlanks (unescape_escape content)

/-- The page knows a template `x`, and content that calls it passes by. -/
theorem escapeContent_inert_template :
    let h := (Host.mk (HostTables.mk [] [(['x'], ['y'])]).expand fun _ => none).withMemory
    let content := [' ', '{', '{', 'x', '}', '}', '\\']
    h.NeedsBraces ∧ (escapeContent content).run h [] =
      ([.expanded .full [' ', '\\', '{', '\\', '{', 'x', '\\', '}', '\\', '}', '\\', '\\']],
        [' ', '\\', '{', '\\', '{', 'x', '\\', '}', '\\', '}', '\\', '\\']) ∧
    (unescapeTrimmed [escape content]).result .verbatim =
      ['{', '{', 'x', '}', '}', '\\'] ∧
    (linkPages ['0']).result .verbatim = [] := by
  intro h content
  obtain ⟨htables, hinert⟩ := escapeContent_inert
  have hbraces : h.NeedsBraces := htables _ _
  obtain ⟨hrun, htrimmed, -⟩ := hinert h hbraces [] content
  obtain ⟨-, -, -, hpages, -⟩ := hinert h hbraces [] ['0']
  exact ⟨hbraces, hrun, htrimmed, hpages⟩

end Wikitext
