import Wikitext.Host.Tables
import Wikitext.Proofs.Host.Memory
import Wikitext.Proofs.Pattern

/-! Pages that leave a text alone unless two opening braces stand side by side in it. A page given
by tables is one of them, whatever its tables hold. -/

namespace Wikitext

def MemoryHost.NeedsBraces (h : MemoryHost) : Prop :=
  ∀ past mode raw, ¬ ['{', '{'] <:+: raw → h.expand past mode raw = raw

theorem substitute_of_not_infix {reference : Text → Text}
    (href : ∀ name, ['{', '{'] <:+: reference name) {t : Text} (ht : ¬ ['{', '{'] <:+: t)
    (rows : List (Text × Text)) : HostTables.substitute reference rows t = t := by
  unfold HostTables.substitute
  induction rows with
  | nil => rfl
  | cons row rows ih =>
    have hrow : ¬ reference row.1 <:+: t := fun h => ht ((href row.1).trans h)
    rw [List.foldl_cons, applyPattern_of_absent hrow, ih]

theorem needsBraces_tables (tables : HostTables) (redirect? : Text → Option Text) :
    (Host.mk tables.expand redirect?).withMemory.NeedsBraces := by
  intro past mode raw hraw
  have harguments : HostTables.substitute HostTables.argumentReference tables.arguments raw = raw :=
    substitute_of_not_infix (fun name => ⟨['{'], name ++ ['}', '}', '}'], by
      simp [HostTables.argumentReference]⟩) hraw tables.arguments
  have htemplates : HostTables.substitute HostTables.templateCall tables.templates raw = raw :=
    substitute_of_not_infix (fun name => ⟨[], name ++ ['}', '}'], by
      simp [HostTables.templateCall]⟩) hraw tables.templates
  change tables.expand mode raw = raw
  simp [HostTables.expand, harguments, htemplates]

end Wikitext
