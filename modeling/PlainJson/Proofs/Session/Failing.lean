import PlainJson.Proofs.FileTree
import PlainJson.Proofs.Session.Configuring

/-!
When configuring fails: because of a level that nobody knows, because of a layout that is refused
where it is looked at, or because of an error with the log file that is none of the system. A layout
is looked at for a console that is not rich, and for a log file once the file is open; so a log file
that the system does not open is no reason to fail, and may even be a reason not to.
-/
set_option autoImplicit false

namespace PlainJson

namespace Resolved

/-- A layout was asked for, and it is refused wherever it is looked at. -/
def Refused (r : Resolved) : Prop :=
  ∃ layout, r.layout = some layout ∧ Log.Layout.accepts layout = false

/-- A log file was asked for, and it can be opened. -/
def Opens (files : FileTree) (r : Resolved) : Prop :=
  ∃ path, r.filePath = some path ∧ files.opening path = .ok ()

/-- A log file was asked for, and it cannot be opened, which is not the fault of the system. -/
def Breaks (files : FileTree) (r : Resolved) : Prop :=
  ∃ e, (∃ path, r.filePath = some path ∧ files.opening path = .error e) ∧ e.isSystem = false

/-- What makes setting up fail. -/
def Fails (files : FileTree) (r : Resolved) : Prop :=
  Log.levelOfName? r.upperLevel = none ∨ (r.useRich = false ∧ r.Refused) ∨
    (r.Opens files ∧ r.Refused) ∨ r.Breaks files

variable {r : Resolved}

end Resolved

section Ends

variable {files : FileTree} {r : Resolved} {u v : Setup} {x : Except ConfigError Unit}

end Ends

namespace Session

/-- The level that is asked for, in upper case, is the name of no level. -/
def UnknownLevel (s : Session) (c : Choices) : Prop :=
  ∃ name, preferred c.level (some s.settings.severity.name) = some name ∧
    Log.levelOfName? (String.ofList (Text.upper name.toList)) = none

/-- A layout is asked for, and it is refused. -/
def RefusedLayout (s : Session) (c : Choices) : Prop :=
  ∃ layout, preferred c.layout s.settings.formatString = some layout ∧ layout ≠ "" ∧
    Log.Layout.accepts layout = false

/-- A log file is asked for, and opening it ends in this way. -/
def LogFile (s : Session) (c : Choices) (opening : Except OpenError Unit) : Prop :=
  ∃ path, preferred c.filePath s.settings.filePath = some path ∧ path ≠ [] ∧
    s.files.opening path = opening

variable {s : Session} {c : Choices}

theorem LogFile.unique {x y : Except OpenError Unit} (hx : s.LogFile c x) (hy : s.LogFile c y) :
    x = y := by
  obtain ⟨path, hp, -, rfl⟩ := hx
  obtain ⟨path', hp', -, rfl⟩ := hy
  rw [hp] at hp'
  cases hp'
  rfl

/-- The reasons to fail. -/
def Fails (s : Session) (c : Choices) : Prop :=
  s.UnknownLevel c ∨ (c.useRich.getD s.settings.useRich = false ∧ s.RefusedLayout c) ∨
    (s.LogFile c (.ok ()) ∧ s.RefusedLayout c) ∨ ∃ e, s.LogFile c (.error e) ∧ e.isSystem = false

end Session

end PlainJson
