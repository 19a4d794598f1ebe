import PlainJson.Severity
import PlainJson.Text.Upper

/-!
What the settings are: six fields, each with a name, a declaration of what it holds and a default.
How values are checked against the declarations is left to a library.
-/
set_option autoImplicit false

namespace PlainJson

/-- The values of which declarations speak. -/
inductive Plain where
  | null
  | bool (b : Bool)
  | int (i : Int)
  | text (s : String)
  deriving DecidableEq, Repr

/-- What a field holds. A text may have to pass a check, which says what is kept of it. -/
inductive Schema where
  | bool
  | int (least : Int)
  | text
  | checked (check : String → Option String)
  | optional (inner : Schema)

inductive Field where
  | debug | snippetLength | filePath | formatString | severity | useRich
  deriving DecidableEq, Repr

namespace Field

/-- In the order of their names. -/
def all : List Field := [.debug, .snippetLength, .filePath, .formatString, .severity, .useRich]

def name : Field → String
  | .debug => "debug"
  | .snippetLength => "error_snippet_length"
  | .filePath => "log_file_path"
  | .formatString => "log_format_string"
  | .severity => "log_level"
  | .useRich => "log_use_rich"

def ofName? (s : String) : Option Field := all.find? fun f => f.name == s

/-- A name that begins with an underscore is private, and never that of a field. -/
def isPrivate (name : String) : Bool := name.toList.head? == some '_'

/-- A name that begins with two underscores belongs to the language. -/
def isReserved (name : String) : Bool := ['_', '_'].isPrefixOf name.toList

/-- A level is kept in upper case, also where this changes the length, if a severity has that
name. -/
def checkLevel (s : String) : Option String :=
  let name := String.ofList (Text.upper s.toList)
  if (Severity.all.map Severity.name).contains name then some name else none

def schema : Field → Schema
  | .debug | .useRich => .bool
  | .snippetLength => .int 1
  | .filePath | .formatString => .optional .text
  | .severity => .checked checkLevel

def default : Field → Plain
  | .debug => .bool false
  | .snippetLength => .int 40
  | .filePath | .formatString => .null
  | .severity => .text "INFO"
  | .useRich => .bool true

theorem mem_all (f : Field) : f ∈ all := by cases f <;> decide

instance {P : Field → Prop} [DecidablePred P] : Decidable (∀ f, P f) :=
  decidable_of_iff (∀ f ∈ all, P f) ⟨fun h f => h f f.mem_all, fun h f _ => h f⟩

@[simp] theorem ofName?_name (f : Field) : ofName? f.name = some f := by cases f <;> decide

theorem eq_of_ofName? {f : Field} {name : String} (h : ofName? name = some f) : f.name = name := by
  have hb := List.find?_some h
  exact eq_of_beq hb

theorem name_injective {f g : Field} (h : f.name = g.name) : f = g := by
  have hf := ofName?_name f
  rw [h, ofName?_name] at hf
  exact (Option.some.inj hf).symm

end Field

end PlainJson
