import PlainJson.Settings.Coerce

/-!
The six settings. Each field has a range of raw values that it accepts and turns into its own type;
what it does not accept is refused with a complaint, and the settings stay as they are.
-/
set_option autoImplicit false

namespace PlainJson

structure Settings where
  debug : Bool
  severity : Severity
  useRich : Bool
  formatString : Option String
  filePath : Option String
  snippetLength : Nat
  deriving DecidableEq, Repr

/-- What is wrong with which fields. -/
structure SettingsError where
  refused : List (String × Complaint)
  deriving DecidableEq, Repr

/-- What is wrong and where. -/
def SettingsError.complaints (e : SettingsError) : List (String × String) :=
  e.refused.map fun c => (c.1, c.2.code)

namespace Settings

def default : Settings := ⟨false, .info, true, none, none, 40⟩

def optionalText : Option String → Value
  | none => .null
  | some s => .text s

def get (s : Settings) : Field → Value
  | .debug => .bool s.debug
  | .snippetLength => .int s.snippetLength
  | .filePath => optionalText s.filePath
  | .formatString => optionalText s.formatString
  | .severity => .text s.severity.name
  | .useRich => .bool s.useRich

def truthOf : Value → Bool
  | .bool b => b
  | _ => false

def textOf? : Value → Option String
  | .text s => some s
  | _ => none

def lengthOf : Value → Nat
  | .int i => i.toNat
  | _ => 0

/-- The settings that have these values. Every value has to be one that its field keeps. -/
def ofValues (v : Field → Value) : Settings where
  debug := truthOf (v .debug)
  severity := ((textOf? (v .severity)).bind Severity.ofName?).getD default.severity
  useRich := truthOf (v .useRich)
  formatString := textOf? (v .formatString)
  filePath := textOf? (v .filePath)
  snippetLength := lengthOf (v .snippetLength)

/-- Assigns a raw value to the field of that name. -/
def assign (s : Settings) (name : String) (x : Value) : Except SettingsError Settings :=
  match Coerce.assign s.get name x with
  | (.ok (), v) => .ok (ofValues v)
  | (.error cs, _) => .error ⟨cs⟩

end Settings

/-- Settings on paper: checked when made, and afterwards any value can be written to a field. -/
structure Draft where
  values : Field → Value

/-- A draft has no other fields. -/
structure NoSuchField where
  name : String
  deriving DecidableEq, Repr

def NoSuchField.message (e : NoSuchField) : String :=
  "\"PcjsonConfig\" object has no field \"" ++ e.name ++ "\""

namespace Draft

def build (given : List (String × Value)) : Except SettingsError Draft :=
  match Coerce.build fun f => given.lookup f.name with
  | .ok v => .ok ⟨v⟩
  | .error cs => .error ⟨cs⟩

def assign (d : Draft) (name : String) (x : Value) : Except NoSuchField Draft :=
  match Field.ofName? name with
  | none => if Field.isPrivate name then .ok d else .error ⟨name⟩
  | some f => .ok ⟨fun g => if g = f then x else d.values g⟩

end Draft

end PlainJson
