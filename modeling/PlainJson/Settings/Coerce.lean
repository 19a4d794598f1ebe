import PlainJson.Settings.Schema
import PlainJson.Text.Numeral
import PlainJson.Value

/-!
From raw values to what the settings hold. A raw value is taken for what it can be read as, and what
cannot be read is refused with a complaint that tells why. A field makes of its raw value what it
keeps, or refuses it, and no other field has a part in that.
-/
set_option autoImplicit false

namespace PlainJson

inductive Complaint where
  | boolParsing | boolType | stringType | valueError
  | intType | intParsing | intParsingSize | intFromFloat | finiteNumber | greaterThanEqual
  | noSuchAttribute
  deriving DecidableEq, Repr

def Complaint.code : Complaint → String
  | .boolParsing => "bool_parsing"
  | .boolType => "bool_type"
  | .stringType => "string_type"
  | .valueError => "value_error"
  | .intType => "int_type"
  | .intParsing => "int_parsing"
  | .intParsingSize => "int_parsing_size"
  | .intFromFloat => "int_from_float"
  | .finiteNumber => "finite_number"
  | .greaterThanEqual => "greater_than_equal"
  | .noSuchAttribute => "no_such_attribute"

namespace Coerce

def falseWords : List String := ["0", "off", "f", "false", "n", "no"]

def trueWords : List String := ["1", "on", "t", "true", "y", "yes"]

def lowerWord (s : String) : String := String.ofList (s.toList.map Char.toLower)

/-- One more than the greatest number in a signed word of 64 bits. -/
def wordBound : Int := 9223372036854775808

def fitsWord (i : Int) : Bool := decide (-wordBound ≤ i) && decide (i < wordBound)

/-- A double of the size of the bound counts as beyond it on either side. -/
def withinWord (i : Int) : Bool := decide (-wordBound < i) && decide (i < wordBound)

/-- A double is whole and within a word, or it is refused. -/
def wholeDouble (bits : UInt64) : Except Complaint Int :=
  match Dyadic.ofBits bits with
  | none => .error .finiteNumber
  | some x =>
    match x.toInt? with
    | none => .error .intFromFloat
    | some i => if withinWord i then .ok i else .error .intParsingSize

def ofWhole (i : Int) : Except Complaint Bool :=
  if i = 0 then .ok false else if i = 1 then .ok true else .error .boolParsing

/-- Words of a truth value are read in any case but not trimmed. -/
def toBool : Value → Except Complaint Bool
  | .bool b => .ok b
  | .int i => if fitsWord i then ofWhole i else .error .boolType
  | .double bits =>
    match wholeDouble bits with
    | .ok i => ofWhole i
    | .error _ => .error .boolType
  | .text s =>
    if falseWords.contains (lowerWord s) then .ok false
    else if trueWords.contains (lowerWord s) then .ok true
    else .error .boolParsing
  | _ => .error .boolType

def toText : Value → Except Complaint String
  | .text s => .ok s
  | _ => .error .stringType

def ofFlaw : Numeral.Flaw → Complaint
  | .malformed => .intParsing
  | .tooLong => .intParsingSize

def toInt : Value → Except Complaint Int
  | .bool b => .ok (if b then 1 else 0)
  | .int i => .ok i
  | .double bits => wholeDouble bits
  | .text s => (Numeral.read s.toList).mapError ofFlaw
  | _ => .error .intType

def plain : Plain → Value
  | .null => .null
  | .bool b => .bool b
  | .int i => .int i
  | .text s => .text s

def validate : Schema → Value → Except Complaint Value
  | .bool, x => (toBool x).map .bool
  | .int least, x =>
    match toInt x with
    | .error c => .error c
    | .ok i => if i < least then .error .greaterThanEqual else .ok (.int i)
  | .text, x => (toText x).map .text
  | .checked check, x =>
    match toText x with
    | .error c => .error c
    | .ok s =>
      match check s with
      | some t => .ok (.text t)
      | none => .error .valueError
  | .optional _, .null => .ok .null
  | .optional inner, x => validate inner x

/-- What is written to a private name is not seen. -/
def assign (v : Field → Value) (name : String) (x : Value) :
    Except (List (String × Complaint)) Unit × (Field → Value) :=
  match Field.ofName? name with
  | none => (if Field.isPrivate name then .ok () else .error [(name, .noSuchAttribute)], v)
  | some f =>
    match validate f.schema x with
    | .ok y => (.ok (), fun g => if g = f then y else v g)
    | .error c => (.error [(f.name, c)], v)

def settle (f : Field) (x : Option Value) : Except Complaint Value :=
  validate f.schema (x.getD (plain f.default))

def complaint? (raw : Field → Option Value) (f : Field) : Option (String × Complaint) :=
  match settle f (raw f) with
  | .ok _ => none
  | .error c => some (f.name, c)

def build (raw : Field → Option Value) :
    Except (List (String × Complaint)) (Field → Value) :=
  match Field.all.filterMap (complaint? raw) with
  | [] => .ok fun f => (settle f (raw f)).toOption.getD .null
  | cs => .error cs

end Coerce

end PlainJson
