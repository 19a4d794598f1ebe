import PlainJson.Log.Field
import PlainJson.Log.Record
import PlainJson.Text.Word

/-!
Layouts: how a record becomes a line. A layout is a text with fields `%(name)s`, `%(levelname)s`,
`%(levelno)d`, `%(message)s` and `%(asctime)s`, which may have flags, a width and a precision. A
layout that has no field at all is not accepted. Whether it has one is told by the look of a field,
so a layout that is accepted may still have parts that cannot be shown, and then it shows nothing.
-/
set_option autoImplicit false

namespace PlainJson.Log

inductive Piece where
  | text (c : Char)
  | field (name : List Char) (spec : FieldSpec)
  deriving DecidableEq, Repr

namespace Layout

def isFlag (c : Char) : Bool := ['#', '0', '+', ' ', '-'].contains c

/-- Conversion letters, in either case; three letters beyond ASCII are cases of `i` and `s`. -/
def isConversion (c : Char) : Bool :=
  "diouxefgcrsa%".toList.contains c.toLower || ['\u0130', '\u0131', '\u017f'].contains c

/-- A number or a star is left out, if there is one. -/
def skipAmount (s : List Char) : List Char :=
  match s with
  | '*' :: cs => cs
  | cs => cs.dropWhile Text.isDecimalDigit

/-- A point is followed by an amount. -/
def skipPrecision (s : List Char) : Option (List Char) :=
  match s with
  | '.' :: cs => if (skipAmount cs).length < cs.length then some (skipAmount cs) else none
  | cs => some cs

/-- What follows the name in something that looks like a field. -/
def looksEnded (s : List Char) : Bool :=
  match skipPrecision (skipAmount (s.dropWhile isFlag)) with
  | some (c :: _) => isConversion c
  | _ => false

/-- Something that looks like a field stands after a percent sign. -/
def looksField (s : List Char) : Bool :=
  match s with
  | '(' :: cs =>
    match cs.dropWhile Text.isWordChar with
    | ')' :: rest => cs.takeWhile Text.isWordChar != [] && looksEnded rest
    | _ => false
  | _ => false

/-- Some field must be found, wherever it stands. -/
def hasField : List Char → Bool
  | [] => false
  | '%' :: cs => looksField cs || hasField cs
  | _ :: cs => hasField cs

def accepts (layout : String) : Bool := hasField layout.toList

/-- The name up to the parenthesis that closes it, where `depth` more are open. -/
def takeName (depth : Nat) : List Char → Option (List Char × List Char)
  | [] => none
  | c :: cs =>
    if c = ')' ∧ depth = 0 then some ([], cs)
    else
      let more := if c = '(' then depth + 1 else if c = ')' then depth - 1 else depth
      (takeName more cs).map fun r => (c :: r.1, r.2)

/-- The digits of a precision, which may be missing. -/
def takePrecision (s : List Char) : Option Nat × List Char :=
  match s with
  | '.' :: cs => (some (Text.decimalValue (cs.takeWhile Char.isDigit)), cs.dropWhile Char.isDigit)
  | cs => (none, cs)

/-- One letter for the size of a number is passed over. -/
def skipSize (s : List Char) : List Char :=
  match s with
  | c :: cs => if ['h', 'l', 'L'].contains c then cs else s
  | [] => []

/-- The part of a field after its name. A star for a number ends in no conversion. -/
def takeSpec (s : List Char) : Option (FieldSpec × List Char) :=
  let t := s.dropWhile isFlag
  let precision := takePrecision (t.dropWhile Char.isDigit)
  match skipSize precision.2 with
  | [] => none
  | c :: cs =>
    some (⟨s.takeWhile isFlag, Text.decimalValue (t.takeWhile Char.isDigit), precision.1, c⟩, cs)

/-- A piece that begins with a percent sign, and what follows it. Without a name there is only the
percent sign itself, written twice. -/
def takePiece (s : List Char) : Option (Piece × List Char) :=
  match s with
  | '%' :: cs => some (.text '%', cs)
  | '(' :: cs =>
    match takeName 0 cs with
    | some (name, rest) => (takeSpec rest).map fun r => (.field name r.1, r.2)
    | none => none
  | _ => none

/-- The pieces of a layout, or nothing if a percent sign begins none. -/
def pieces : Nat → List Char → Option (List Piece)
  | _, [] => some []
  | 0, _ :: _ => none
  | steps + 1, '%' :: cs =>
    match takePiece cs with
    | some (p, rest) => (pieces steps rest).map (p :: ·)
    | none => none
  | steps + 1, c :: cs => (pieces steps cs).map (.text c :: ·)

def timeText : List Char := "<time>".toList

def fieldValue? (r : Record) (name : List Char) : Option FieldValue :=
  if name = "asctime".toList then some (.text timeText)
  else if name = "name".toList then some (.text r.logger.toList)
  else if name = "levelname".toList then some (.text (levelName r.level).toList)
  else if name = "message".toList then some (.text r.message.toList)
  else if name = "levelno".toList then some (.number r.level)
  else none

def renderField (r : Record) (name : List Char) (spec : FieldSpec) : Option (List Char) :=
  (fieldValue? r name).bind spec.shown

def renderPieces (r : Record) : List Piece → Option (List Char)
  | [] => some []
  | .text c :: ps => (renderPieces r ps).map (c :: ·)
  | .field name spec :: ps =>
    match renderField r name spec, renderPieces r ps with
    | some s, some t => some (s ++ t)
    | _, _ => none

/-- The line of a record, without its end. -/
def render (layout : String) (r : Record) : Option String :=
  let s := layout.toList
  ((pieces s.length s).bind (renderPieces r)).map String.ofList

def console : String := "%(asctime)s | %(name)-20s | %(levelname)-8s | %(message)s"

def file : String := "%(asctime)s | %(name)s | %(levelname)s | %(message)s"

example : accepts console = true ∧ accepts file = true ∧ accepts "%(message)" = false := by
  decide +kernel

end Layout

end PlainJson.Log
