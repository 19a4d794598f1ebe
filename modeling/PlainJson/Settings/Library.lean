import PlainJson.Settings.Schema

/-!
What is taken from a library of settings: it checks values against declarations, keeps the values of
the fields, and finds the values in its sources. Nothing is known of such a library but the laws
that are stated here, so what follows from them holds for any library that keeps them.
-/
set_option autoImplicit false

namespace PlainJson

/-- Where settings come from: arguments, the environment, and the text of a file of variables. -/
structure Inputs (Raw : Type) where
  arguments : List (String × Raw)
  environment : List (String × String)
  file : Option String

namespace Inputs
variable {Raw : Type}

/-- The environment as variables. -/
def environmentVariables (s : Inputs Raw) : List (String × Option String) :=
  s.environment.map fun e => (e.1, some e.2)

/-- The variables of the file, if there is one. The reader is also shown the environment. -/
def fileVariables (read : List (String × String) → String → List (String × Option String))
    (s : Inputs Raw) : List (String × Option String) :=
  match s.file with
  | none => []
  | some text => read s.environment text

end Inputs

/-- The parts of a library that settings are made with. -/
structure Library where
  /-- The values of any kind. -/
  Raw : Type
  /-- What there is to say against a value. -/
  Complaint : Type
  plain : Plain → Raw
  /-- What is kept of a value where this is declared. -/
  validate : Schema → Raw → Except Complaint Raw
  /-- Assigns a value to the field of a name. -/
  assign : (Field → Raw) → String → Raw → Except (List (String × Complaint)) Unit × (Field → Raw)
  /-- The fields from their values. -/
  build : (Field → Option Raw) → Except (List (String × Complaint)) (Field → Raw)
  /-- The value that arguments have for a field. -/
  argumentOf : List (String × Raw) → Field → Option Raw
  /-- The value that variables have for a field. -/
  variableOf : List (String × Option String) → Field → Option Raw
  /-- The variables of a file, read in an environment. -/
  readFile : List (String × String) → String → List (String × Option String)
  load : Inputs Raw → Except (List (String × Complaint)) (Field → Raw)

/-- The name in lower case. -/
def lowerName (s : String) : String := String.ofList (s.toList.map Char.toLower)

section
variable {β : Type}

/-- An entry has the name of the field, in any letter case, and this value. -/
def Gives (f : Field) (entries : List (String × β)) (x : β) : Prop :=
  ∃ name, (name, x) ∈ entries ∧ lowerName name = f.name

def Names (f : Field) (entries : List (String × β)) : Prop := ∃ x, Gives f entries x

/-- No field is named by two entries. -/
def NamedOnce (entries : List (String × β)) : Prop :=
  entries.Pairwise fun d e => ∀ f : Field, lowerName d.1 = f.name → lowerName e.1 ≠ f.name

instance (entries : List (String × β)) : Decidable (NamedOnce entries) :=
  inferInstanceAs (Decidable (entries.Pairwise _))

variable {f : Field} {name : String} {x y : β} {entries : List (String × β)}

@[simp] theorem gives_nil : ¬Gives f [] x := by simp [Gives]

@[simp] theorem gives_cons : Gives f ((name, y) :: entries) x ↔
    (lowerName name = f.name ∧ x = y) ∨ Gives f entries x := by
  simp only [Gives, List.mem_cons, Prod.mk.injEq, or_and_right, exists_or]
  refine or_congr_left ⟨?_, ?_⟩
  · rintro ⟨_, ⟨rfl, rfl⟩, hn⟩
    exact ⟨hn, rfl⟩
  · rintro ⟨hn, rfl⟩
    exact ⟨name, ⟨rfl, rfl⟩, hn⟩

end

namespace Library

variable (L : Library)

/-- How values are checked. What is kept where a kind of value is declared is of that kind, and what
is of that kind is kept as it is. -/
structure Checks : Prop where
  plain_injective {a b : Plain} : L.plain a = L.plain b → a = b
  bool {x y : L.Raw} : L.validate .bool x = .ok y → ∃ b, y = L.plain (.bool b)
  bool_self (b : Bool) : L.validate .bool (L.plain (.bool b)) = .ok (L.plain (.bool b))
  int {least : Int} {x y : L.Raw} :
    L.validate (.int least) x = .ok y → ∃ i, least ≤ i ∧ y = L.plain (.int i)
  int_self {least i : Int} :
    least ≤ i → L.validate (.int least) (L.plain (.int i)) = .ok (L.plain (.int i))
  text_self (s : String) : L.validate .text (L.plain (.text s)) = .ok (L.plain (.text s))
  text {x y : L.Raw} : L.validate .text x = .ok y → ∃ s, y = L.plain (.text s)
  /-- A check is made of what is kept of the value as a text. -/
  checked {check : String → Option String} {x y : L.Raw} :
    L.validate (.checked check) x = .ok y → ∃ s t,
      L.validate .text x = .ok (L.plain (.text s)) ∧ check s = some t ∧ y = L.plain (.text t)
  checked_some {check : String → Option String} {x : L.Raw} {s t : String} :
    L.validate .text x = .ok (L.plain (.text s)) → check s = some t →
      L.validate (.checked check) x = .ok (L.plain (.text t))
  optional_null (inner : Schema) :
    L.validate (.optional inner) (L.plain .null) = .ok (L.plain .null)
  optional_of_ne {inner : Schema} {x : L.Raw} :
    x ≠ L.plain .null → L.validate (.optional inner) x = L.validate inner x

/-- How values are assigned, where it is declared that they are checked. A value is checked against
the declaration of the field of that name, and what is kept of it becomes the value of this field
alone. What is written to a name that is no field is refused or put aside. -/
structure Assigns : Prop where
  accepted {v : Field → L.Raw} {f : Field} {x y : L.Raw} : L.validate f.schema x = .ok y →
    (L.assign v f.name x).1 = .ok () ∧ (L.assign v f.name x).2 f = y ∧
      ∀ g, g ≠ f → (L.assign v f.name x).2 g = v g
  refused {v : Field → L.Raw} {f : Field} {x : L.Raw} {c : L.Complaint} :
    L.validate f.schema x = .error c → L.assign v f.name x = (.error [(f.name, c)], v)
  unknown {v : Field → L.Raw} {name : String} {x : L.Raw} : Field.ofName? name = none →
    Field.isReserved name = false → (L.assign v name x).2 = v

/-- What a field makes of the value it is given. If it is given none, its default is checked. -/
def settle (f : Field) (x : Option L.Raw) : Except L.Complaint L.Raw :=
  L.validate f.schema (x.getD (L.plain f.default))

/-- How settings are built. Every field settles its own value, and every field that refuses its
value is complained of once. -/
structure Builds : Prop where
  built {raw : Field → Option L.Raw} {v : Field → L.Raw} :
    L.build raw = .ok v → ∀ f, L.settle f (raw f) = .ok (v f)
  complained {raw : Field → Option L.Raw} {cs : List (String × L.Complaint)} :
    L.build raw = .error cs → cs ≠ [] ∧ (cs.map Prod.fst).Nodup ∧
      ∀ name c, (name, c) ∈ cs ↔ ∃ f : Field, f.name = name ∧ L.settle f (raw f) = .error c

/-- The variables of the file as the library reads it. -/
def fromFile (s : Inputs L.Raw) : List (String × Option String) := s.fileVariables L.readFile

/-- The value of the first source that has one for the field. -/
def found (s : Inputs L.Raw) (f : Field) : Option L.Raw :=
  ((L.argumentOf s.arguments f).or (L.variableOf s.environmentVariables f)).or
    (L.variableOf (L.fromFile s) f)

/-- How values are found, where it is declared that the case of letters does not matter. Each source
is searched for the names of the fields in any letter case, and an earlier source goes before a
later one. Arguments with private names say how to search, so nothing is told of the search where
there are such. -/
structure Loads : Prop where
  argument_of_gives {entries : List (String × L.Raw)} {f : Field} {x : L.Raw} :
    NamedOnce entries → Gives f entries x → L.argumentOf entries f = some x
  argument_eq_none {entries : List (String × L.Raw)} {f : Field} :
    ¬Names f entries → L.argumentOf entries f = none
  variable_of_gives {entries : List (String × Option String)} {f : Field} {text : String} :
    NamedOnce entries → Gives f entries (some text) →
      L.variableOf entries f = some (L.plain (.text text))
  variable_eq_none {entries : List (String × Option String)} {f : Field} :
    (∀ text, ¬Gives f entries (some text)) → L.variableOf entries f = none
  order {s : Inputs L.Raw} :
    (∀ e ∈ s.arguments, Field.isPrivate e.1 = false) → L.load s = L.build (L.found s)
  loaded {s : Inputs L.Raw} {v : Field → L.Raw} :
    L.load s = .ok v → ∃ raw, L.build raw = .ok v

end Library

end PlainJson
