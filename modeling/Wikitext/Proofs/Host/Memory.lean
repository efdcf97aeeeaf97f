import Mathlib.Data.List.Infix
import Wikitext.Host.Script

/-! Hosts with a memory. Such a host answers by everything that has happened before, so whatever a
page does while a function runs is the run of one of them. A host without memory gives the result
and the events of the script. -/

namespace Wikitext

structure MemoryHost where
  expand : List Event → ExpandMode → Text → Text
  redirect? : List Event → Text → Option Text

def Host.withMemory (h : Host) : MemoryHost :=
  ⟨fun _ => h.expand, fun _ => h.redirect?⟩

namespace Script

variable {α β : Type}

/-- What has happened at the end, and the result. -/
def run (h : MemoryHost) : Script α → List Event → List Event × α
  | done a, past => (past, a)
  | expand mode raw next, past =>
    (next (h.expand past mode raw)).run h (past ++ [.expanded mode raw])
  | redirect page next, past => (next (h.redirect? past page)).run h (past ++ [.lookedUp page])
  | log note next, past => next.run h (past ++ [.logged note])

variable (h : MemoryHost) (past : List Event)

@[simp] theorem run_pure (a : α) : (pure a : Script α).run h past = (past, a) :=
  rfl

@[simp] theorem run_bind (s : Script α) (f : α → Script β) :
    (s >>= f).run h past = (f (s.run h past).2).run h (s.run h past).1 := by
  change (s.bind f).run h past = _
  induction s generalizing past with
  | done => rfl
  | expand _ _ _ ih => exact ih _ _
  | redirect _ _ ih => exact ih _ _
  | log _ _ ih => exact ih _

theorem run_bind_of_eq {past next : List Event} {s : Script α} {a : α}
    (hs : s.run h past = (next, a)) (f : α → Script β) :
    (s >>= f).run h past = (f a).run h next := by
  rw [run_bind, hs]

@[simp] theorem run_map (s : Script α) (f : α → β) :
    (f <$> s).run h past = ((s.run h past).1, f (s.run h past).2) := by
  rw [← bind_pure_comp, run_bind, run_pure]

@[simp] theorem run_expandFull (raw : Text) :
    (expandFull raw).run h past = (past ++ [.expanded .full raw], h.expand past .full raw) :=
  rfl

@[simp] theorem run_expandLiteral (raw : Text) :
    (expandLiteral raw).run h past = (past ++ [.expanded .literal raw], h.expand past .literal raw) :=
  rfl

@[simp] theorem run_write (note : Note) : (write note).run h past = (past ++ [.logged note], ()) :=
  rfl

theorem run_withMemory (h : Host) (s : Script α) :
    s.run h.withMemory past = (past ++ s.events h, s.result h) := by
  induction s generalizing past with
  | done => simp [run, events, result]
  | expand mode raw next ih =>
    rw [events, List.append_cons]
    exact ih (h.expand mode raw) _
  | redirect page next ih =>
    rw [events, List.append_cons]
    exact ih (h.redirect? page) _
  | log note next ih =>
    rw [events, List.append_cons]
    exact ih _

theorem prefix_run (s : Script α) : past <+: (s.run h past).1 := by
  induction s generalizing past with
  | done => exact List.prefix_rfl
  | expand _ _ _ ih => exact (List.prefix_append _ _).trans (ih _ _)
  | redirect _ _ ih => exact (List.prefix_append _ _).trans (ih _ _)
  | log _ _ ih => exact (List.prefix_append _ _).trans (ih _)

theorem run_mapM_expandFull_fst (raws : List Text) :
    ((raws.mapM expandFull).run h past).1 = past ++ raws.map (.expanded .full) := by
  induction raws generalizing past with
  | nil => simp
  | cons raw raws ih => simp [List.mapM_cons, ih]

end Script

def Event.call? : Event → Option (ExpandMode × Text)
  | expanded mode raw => some (mode, raw)
  | _ => none

theorem filterMap_call?_expanded (mode : ExpandMode) (raws : List Text) :
    (raws.map (Event.expanded mode)).filterMap Event.call? = raws.map (Prod.mk mode) := by
  rw [List.filterMap_map]
  exact congrFun List.filterMap_eq_map' raws

/-- Both hosts answer alike what the event asks after `past`. -/
def MemoryHost.AnswersAlike (h h' : MemoryHost) (past : List Event) : Event → Prop
  | .expanded mode raw => h'.expand past mode raw = h.expand past mode raw
  | .lookedUp page => h'.redirect? past page = h.redirect? past page
  | .logged _ => True

/-- Both hosts answer alike all that is asked from `past` on until `events` have happened. -/
def MemoryHost.AgreesOn (h h' : MemoryHost) (past events : List Event) : Prop :=
  ∀ before e, past <+: before → before ++ [e] <+: events → h.AnswersAlike h' before e

theorem MemoryHost.AgreesOn.mono {h h' : MemoryHost} {past later events : List Event}
    (hagree : h.AgreesOn h' past events) (hpast : past <+: later) : h.AgreesOn h' later events :=
  fun before e hlater he => hagree before e (hpast.trans hlater) he

/-- A script cannot tell two hosts apart that agree on what it asks of one of them. -/
theorem Script.run_eq_of_agreesOn {α : Type} {h h' : MemoryHost} {past : List Event} {s : Script α}
    (hagree : h.AgreesOn h' past (s.run h past).1) : s.run h' past = s.run h past := by
  induction s generalizing past with
  | done => rfl
  | expand mode raw next ih =>
    have hanswer : h'.expand past mode raw = h.expand past mode raw :=
      hagree past (.expanded mode raw) List.prefix_rfl (prefix_run h _ _)
    change (next (h'.expand past mode raw)).run h' _ = (next (h.expand past mode raw)).run h _
    rw [hanswer]
    exact ih _ (hagree.mono (List.prefix_append _ _))
  | redirect page next ih =>
    have hanswer : h'.redirect? past page = h.redirect? past page :=
      hagree past (.lookedUp page) List.prefix_rfl (prefix_run h _ _)
    change (next (h'.redirect? past page)).run h' _ = (next (h.redirect? past page)).run h _
    rw [hanswer]
    exact ih _ (hagree.mono (List.prefix_append _ _))
  | log note next ih => exact ih (hagree.mono (List.prefix_append _ _))

end Wikitext
