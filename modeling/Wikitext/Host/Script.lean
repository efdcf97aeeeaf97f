import Wikitext.Text.Quoted

/-! What a wiki function asks of the page that calls it. A script is a function's result or the
next request together with what follows each answer, so a function can look at nothing but the
answers it asked for. -/

namespace Wikitext

/-- What stays unexpanded: references to arguments, and calls of templates. -/
structure ExpandMode where
  keepArguments : Bool
  keepTemplates : Bool
deriving DecidableEq

namespace ExpandMode

def full : ExpandMode :=
  ⟨false, false⟩

/-- The text as it is written. -/
def literal : ExpandMode :=
  ⟨true, true⟩

instance : Inhabited ExpandMode := ⟨full⟩

end ExpandMode

inductive Level where
  | debug
  | trace
deriving DecidableEq

def Level.name : Level → String
  | .debug => "debug"
  | .trace => "trace"

/-- What functions log. -/
inductive Note where
  | substituted (value token result : Text)
  | noCase (key : Text)
  | redirected (page target : Text)
deriving DecidableEq

namespace Note

def level : Note → Level
  | substituted .. => .trace
  | noCase _ => .debug
  | redirected .. => .debug

def message : Note → String
  | substituted value token result =>
    "substituted " ++ String.ofList (quoted value) ++ " for " ++ String.ofList (quoted token) ++
      ": " ++ String.ofList (quoted result)
  | noCase key => "ueswitch: no case for key " ++ String.ofList (quoted key) ++ ", using default"
  | redirected page target =>
    "follow: " ++ String.ofList (quoted page) ++ " redirects to " ++ String.ofList (quoted target)

end Note

inductive Script (α : Type) where
  | done (result : α)
  | expand (mode : ExpandMode) (raw : Text) (next : Text → Script α)
  | redirect (page : Text) (next : Option Text → Script α)
  | log (note : Note) (next : Script α)

/-- The page that calls a function, as the function meets it. -/
structure Host where
  expand : ExpandMode → Text → Text
  redirect? : Text → Option Text

/-- Arguments are plain text already, and no page is a redirect. -/
def Host.verbatim : Host :=
  ⟨fun _ raw => raw, fun _ => none⟩

inductive Event where
  | expanded (mode : ExpandMode) (raw : Text)
  | lookedUp (page : Text)
  | logged (note : Note)
deriving DecidableEq

namespace Script

variable {α β : Type}

def bind : Script α → (α → Script β) → Script β
  | done a, f => f a
  | expand mode raw next, f => expand mode raw fun t => (next t).bind f
  | redirect page next, f => redirect page fun t => (next t).bind f
  | log note next, f => log note (next.bind f)

instance : Monad Script where
  pure := done
  bind := bind

def result (h : Host) : Script α → α
  | done a => a
  | expand mode raw next => (next (h.expand mode raw)).result h
  | redirect page next => (next (h.redirect? page)).result h
  | log _ next => next.result h

/-- What happens, in order, when a host answers the script. -/
def events (h : Host) : Script α → List Event
  | done _ => []
  | expand mode raw next => .expanded mode raw :: (next (h.expand mode raw)).events h
  | redirect page next => .lookedUp page :: (next (h.redirect? page)).events h
  | log note next => .logged note :: next.events h

def calls (h : Host) (s : Script α) : List (ExpandMode × Text) :=
  (s.events h).filterMap fun
    | .expanded mode raw => some (mode, raw)
    | _ => none

def lookups (h : Host) (s : Script α) : List Text :=
  (s.events h).filterMap fun
    | .lookedUp page => some page
    | _ => none

def notes (h : Host) (s : Script α) : List Note :=
  (s.events h).filterMap fun
    | .logged note => some note
    | _ => none

def expandFull (raw : Text) : Script Text :=
  expand .full raw done

def expandLiteral (raw : Text) : Script Text :=
  expand .literal raw done

def redirectOf (page : Text) : Script (Option Text) :=
  redirect page done

def write (note : Note) : Script Unit :=
  log note (done ())

@[simp] theorem result_pure (h : Host) (a : α) : (pure a : Script α).result h = a :=
  rfl

@[simp] theorem result_bind (h : Host) (s : Script α) (f : α → Script β) :
    (s >>= f).result h = (f (s.result h)).result h := by
  change (s.bind f).result h = _
  induction s with
  | done => rfl
  | expand _ _ _ ih => exact ih _
  | redirect _ _ ih => exact ih _
  | log _ _ ih => exact ih

@[simp] theorem events_bind (h : Host) (s : Script α) (f : α → Script β) :
    (s >>= f).events h = s.events h ++ (f (s.result h)).events h := by
  change (s.bind f).events h = _
  induction s with
  | done => rfl
  | expand _ _ _ ih => exact congrArg _ (ih _)
  | redirect _ _ ih => exact congrArg _ (ih _)
  | log _ _ ih => exact congrArg _ ih

@[simp] theorem calls_pure (h : Host) (a : α) : (pure a : Script α).calls h = [] :=
  rfl

@[simp] theorem calls_bind (h : Host) (s : Script α) (f : α → Script β) :
    (s >>= f).calls h = s.calls h ++ (f (s.result h)).calls h := by
  rw [calls, events_bind, List.filterMap_append]
  rfl

instance : LawfulMonad Script := LawfulMonad.mk' Script
  (fun s => by
    change s.bind done = s
    induction s with
    | done => rfl
    | expand _ _ _ ih => exact congrArg _ (funext ih)
    | redirect _ _ ih => exact congrArg _ (funext ih)
    | log _ _ ih => exact congrArg _ ih)
  (fun _ _ => rfl)
  (fun s f g => by
    change (s.bind f).bind g = s.bind fun a => (f a).bind g
    induction s with
    | done => rfl
    | expand _ _ _ ih => exact congrArg _ (funext ih)
    | redirect _ _ ih => exact congrArg _ (funext ih)
    | log _ _ ih => exact congrArg _ ih)

@[simp] theorem result_map (h : Host) (s : Script α) (f : α → β) :
    (f <$> s).result h = f (s.result h) := by
  rw [← bind_pure_comp, result_bind, result_pure]

@[simp] theorem result_expandFull (h : Host) (raw : Text) :
    (expandFull raw).result h = h.expand .full raw :=
  rfl

/-- Arguments expanded in a row are asked for in order. -/
theorem result_mapM_expandFull (h : Host) (raws : List Text) :
    (raws.mapM expandFull).result h = raws.map (h.expand .full) := by
  induction raws with
  | nil => rfl
  | cons raw raws ih => simp [List.mapM_cons, ih]

end Script

end Wikitext
