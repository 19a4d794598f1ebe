import PlainJson.FileTree
import PlainJson.Settings.Basic
import PlainJson.Settings.Dotenv
import PlainJson.Settings.Library

/-!
Where settings come from. Every field is looked up by itself: in the arguments, then in the
environment, then in the file of variables, by its name in any case; what none of them names keeps
its default. Names that are no field are not looked at. Where a name stands twice in different
cases, the first argument counts, but the last variable.
-/
set_option autoImplicit false

namespace PlainJson

abbrev Sources := Inputs Value

namespace Sources

def isNamed {β : Type} (f : Field) (entry : String × β) : Bool := lowerName entry.1 == f.name

/-- Of the entries whose names differ only in case, the first. -/
def firstNamed {β : Type} (entries : List (String × β)) (f : Field) : Option β :=
  (entries.find? (isNamed f)).map (·.2)

/-- Of the entries whose names differ only in case, the last. -/
def lastNamed {β : Type} (entries : List (String × β)) (f : Field) : Option β :=
  firstNamed entries.reverse f

/-- The last variable with the name of the field, if it has a value. -/
def variableOf (entries : List (String × Option String)) (f : Field) : Option Value :=
  ((lastNamed entries f).bind id).map .text

/-- The first source that names the field. -/
def raw (s : Sources) (f : Field) : Option Value :=
  ((firstNamed s.arguments f).or (variableOf s.environmentVariables f)).or
    (variableOf (s.fileVariables Dotenv.entries) f)

def load (s : Sources) : Except (List (String × Complaint)) (Field → Value) := Coerce.build s.raw

def settings (s : Sources) : Except SettingsError Settings :=
  match s.load with
  | .ok v => .ok (.ofValues v)
  | .error cs => .error ⟨cs⟩

/-- The variable that names the file of variables. -/
def fileVariable : String := "ENV_PATH"

/-- An environment by itself, with the file that it names if the path leads to one. -/
def ofEnvironment (tree : FileTree) (environment : List (String × String)) : Sources :=
  ⟨[], environment, (environment.lookup fileVariable).bind tree.content?⟩

end Sources

/-- The library that takes a value for what it can be read as. -/
abbrev Library.lax : Library where
  Raw := Value
  Complaint := PlainJson.Complaint
  plain := Coerce.plain
  validate := Coerce.validate
  assign := Coerce.assign
  build := Coerce.build
  argumentOf := Sources.firstNamed
  variableOf := Sources.variableOf
  readFile := Dotenv.entries
  load := Sources.load

end PlainJson
