import PlainJson.PathText
import PlainJson.Session.Basic
import PlainJson.Text.Upper

/-!
Setting up logging. A choice that is not made, or is empty, falls back to the settings. The level is
looked up before the handlers are touched; a layout is checked when its handler is made, so a
refused layout leaves what was done before it. A file that the system does not open is reported and
no more, but any other error with its path stops the setup.
-/
set_option autoImplicit false

namespace PlainJson

structure Choices where
  level : Option String
  useRich : Option Bool
  layout : Option String
  filePath : Option PathText
  force : Bool
  deriving DecidableEq, Repr

def Choices.none : Choices := ⟨.none, .none, .none, .none, false⟩

inductive ConfigError where
  | unknownLevel (name : String)
  | invalidLayout (layout : String)
  | badPath (e : OpenError)
  deriving DecidableEq, Repr

def ConfigError.message : ConfigError → String
  | .unknownLevel name => "Unknown level: " ++ Text.quoted name
  | .invalidLayout layout => "Invalid format '" ++ layout ++ "' for '%' style"
  | .badPath e => e.message

/-- A text that is not empty. -/
def nonempty {α : Type} [DecidableEq α] [Inhabited α] (s : Option α) : Option α :=
  s.filter fun t => t != default

/-- What a choice comes to under the settings in force. -/
structure Resolved where
  level : String
  useRich : Bool
  layout : Option String
  filePath : Option PathText
  deriving DecidableEq, Repr

def Choices.resolve (c : Choices) (s : Settings) : Resolved where
  level := (nonempty c.level).getD s.severity.name
  useRich := c.useRich.getD s.useRich
  layout := (nonempty c.layout).or (nonempty s.formatString)
  filePath := (nonempty c.filePath).or (nonempty (s.filePath : Option PathText))

def Resolved.upperLevel (r : Resolved) : String := String.ofList (Text.upper r.level.toList)

/-- A layout is refused only if one was asked for. -/
def checkLayout (asked : Option String) (standard : String) : Except ConfigError String :=
  match asked with
  | none => .ok standard
  | some layout => if Log.Layout.accepts layout then .ok layout else .error (.invalidLayout layout)

def Resolved.mainHandler (r : Resolved) : Except ConfigError Handler :=
  if r.useRich then .ok .rich else (checkLayout r.layout Log.Layout.console).map .console

namespace Session

def debugConfig (s : Session) (message : String) : Session :=
  s.issueAt Log.configLogger .debug message

def reportUnusable (s : Session) (path : PathText) (e : OpenError) :
    Except ConfigError Unit × Session :=
  if e.isSystem then
    (.ok (), s.issueAt Log.rootName .error
      ("Failed to configure file handler at " ++ path.shown ++ ": " ++ e.message))
  else (.error (.badPath e), s)

/-- Adds the handler of a log file that was opened. -/
def addFile (s : Session) (r : Resolved) (path : PathText) (place : FilePath) :
    Except ConfigError Unit × Session :=
  match checkLayout r.layout Log.Layout.file with
  | .error e => (.error e, s)
  | .ok layout =>
    (.ok (), debugConfig { s with handlers := s.handlers ++ [.file place.place layout] }
      ("Logging also configured for file: " ++ path.shown))

/-- The log file is made before its layout is checked. -/
def attachFile (s : Session) (r : Resolved) : Except ConfigError Unit × Session :=
  match r.filePath with
  | none => (.ok (), s)
  | some path =>
    match s.files.openGiven path with
    | (.error e, files) => reportUnusable { s with files } path e
    | (.ok place, files) => addFile { s with files } r path place

def truthText (b : Bool) : String := if b then "True" else "False"

/-- Sets up the root from resolved choices. -/
def install (s : Session) (r : Resolved) : Except ConfigError Unit × Session :=
  match Log.levelOfName? r.upperLevel with
  | none => (.error (.unknownLevel r.upperLevel), s)
  | some n =>
    match r.mainHandler with
    | .error e => (.error e, { s with level := n, handlers := [] })
    | .ok h =>
      match attachFile { s with level := n, handlers := [h] } r with
      | (.error e, t) => (.error e, t)
      | (.ok (), t) =>
        (.ok (), { t.debugConfig ("--- Logging configured. Level: " ++ r.level ++ ", Rich: " ++
          truthText r.useRich ++ " ---") with configured := true })

/-- The session starts when logging is first set up. -/
def noteStart (s : Session) : Session := if s.configured then s else { s with started := s.clock }

def configure (s : Session) (c : Choices) : Except ConfigError Unit × Session :=
  if s.configured && !c.force then
    (.ok (), s.debugConfig "Logging already configured. Skipping reconfiguration.")
  else s.noteStart.install (c.resolve s.settings)

/-- Asking for a logger sets up logging if nobody has. -/
def ensureConfigured (s : Session) : Except ConfigError Unit × Session :=
  if s.configured then (.ok (), s) else s.configure .none

end Session

end PlainJson
