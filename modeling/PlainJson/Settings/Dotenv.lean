import PlainJson.Entries
import PlainJson.Text.Blank

/-!
Files of variables, one `KEY=value` a line. A key may follow the word `export`; a value may be
quoted, and then runs to the closing quote over as many lines as it takes. A key without an equals
sign is named but has no value. A line that does not fit is skipped. In a value, `${NAME}` and
`${NAME:-fallback}` stand for the value of another variable.
-/
set_option autoImplicit false

namespace PlainJson.Dotenv

/-- A variable that is named, with the value that it is given if any. -/
structure Binding where
  key : String
  value : Option String
  deriving DecidableEq, Repr

/-- Line ends of the three common kinds become one. -/
def unixLines : List Char → List Char
  | '\r' :: '\n' :: cs => '\n' :: unixLines cs
  | '\r' :: cs => '\n' :: unixLines cs
  | c :: cs => c :: unixLines cs
  | [] => []

def isInlineBlank (c : Char) : Bool := Text.isBlank c && c != '\n' && c != '\r'

def skipInline (s : List Char) : List Char := s.dropWhile isInlineBlank

def isLineEnd (c : Char) : Bool := c == '\n' || c == '\r'

def restOfLine (s : List Char) : List Char := (s.dropWhile fun c => !isLineEnd c).drop 1

def skipExport (s : List Char) : List Char :=
  match s with
  | 'e' :: 'x' :: 'p' :: 'o' :: 'r' :: 't' :: c :: cs =>
    if isInlineBlank c then skipInline cs else s
  | _ => s

/-- The text up to the closing quote and what follows the quote. A backslash keeps the character
after it from closing the value. -/
def closing (q : Char) : List Char → Option (List Char × List Char)
  | [] => none
  | '\\' :: c :: cs => (closing q cs).map fun r => ('\\' :: c :: r.1, r.2)
  | c :: cs => if c = q then some ([], cs) else (closing q cs).map fun r => (c :: r.1, r.2)

def doubleEscape? : Char → Option Char
  | '\\' => some '\\'
  | '"' => some '"'
  | 'a' => some '\x07'
  | 'b' => some '\x08'
  | 'f' => some '\x0c'
  | 'n' => some '\n'
  | 'r' => some '\r'
  | 't' => some '\t'
  | 'v' => some '\x0b'
  | '\x27' => some '\x27'
  | _ => none

def singleEscape? (c : Char) : Option Char :=
  if c = '\\' ∨ c = '\x27' then some c else none

def unescape (known : Char → Option Char) : List Char → List Char
  | '\\' :: c :: cs =>
    match known c with
    | some d => d :: unescape known cs
    | none => '\\' :: unescape known (c :: cs)
  | c :: cs => c :: unescape known cs
  | [] => []
termination_by s => s.length

def trimBlank (s : List Char) : List Char :=
  ((s.dropWhile Text.isBlank).reverse.dropWhile Text.isBlank).reverse

/-- Cuts a comment off: a number sign with white space before it. -/
def cutComment : List Char → List Char
  | [] => []
  | c :: cs =>
    if Text.isBlank c && (cs.dropWhile Text.isBlank).head? == some '#' then []
    else c :: cutComment cs

def readKey (s : List Char) : Option (Option (List Char) × List Char) :=
  match s with
  | '#' :: _ => some (none, s)
  | c :: cs =>
    if c = '\x27' then
      let key := cs.takeWhile fun d => d != '\x27'
      match cs.dropWhile fun d => d != '\x27' with
      | _ :: rest => if key = [] then none else some (some key, rest)
      | [] => none
    else
      let isKey := fun d : Char => d != '=' && d != '#' && !Text.isBlank d
      let key := s.takeWhile isKey
      if key = [] then none else some (some key, s.dropWhile isKey)
  | [] => none

/-- What stands after an equals sign. The white space before a value can also begin a comment. -/
def readValue (s : List Char) : Option (List Char × List Char) :=
  match skipInline s with
  | '\x27' :: cs => (closing '\x27' cs).map fun r => (unescape singleEscape? r.1, r.2)
  | '"' :: cs => (closing '"' cs).map fun r => (unescape doubleEscape? r.1, r.2)
  | _ =>
    let line := s.takeWhile fun c => !isLineEnd c
    some (trimBlank (cutComment line), s.dropWhile fun c => !isLineEnd c)

/-- After a binding only a comment may stand on the line. -/
def endLine (s : List Char) : Option (List Char) :=
  let t := skipInline s
  let u := if t.head? == some '#' then t.dropWhile fun c => !isLineEnd c else t
  match u with
  | [] => some []
  | c :: cs => if isLineEnd c then some cs else none

/-- One line, or more of them if a quoted value goes on, and what is left of the text. -/
def readLine (s : List Char) : Option Binding × List Char :=
  let t := skipExport s
  match readKey t with
  | none => (none, restOfLine t)
  | some (key, u) =>
    let w := skipInline u
    match w with
    | '=' :: x =>
      match readValue x with
      | none => (none, restOfLine x)
      | some (value, y) =>
        match endLine y with
        | none => (none, restOfLine y)
        | some z => (key.map fun k => ⟨String.ofList k, some (String.ofList value)⟩, z)
    | _ =>
      match endLine w with
      | none => (none, restOfLine w)
      | some z => (key.map fun k => ⟨String.ofList k, none⟩, z)

def readLines : Nat → List Char → List Binding
  | 0, _ => []
  | steps + 1, s =>
    match s.dropWhile Text.isBlank with
    | [] => []
    | t =>
      match readLine t with
      | (some b, rest) => b :: readLines steps rest
      | (none, rest) => readLines steps rest

/-- A byte order mark in front of a file is no part of its text. -/
def skipMark : List Char → List Char
  | '\ufeff' :: cs => cs
  | cs => cs

/-- Every line takes at least one character. -/
def bindings (s : String) : List Binding :=
  let t := unixLines (skipMark s.toList)
  readLines (t.length + 1) t

def isNameChar (c : Char) : Bool := c != '\x7d' && c != ':'

/-- What a reference names, its fallback, and the text after it. -/
def reference? (s : List Char) : Option (List Char × List Char × List Char) :=
  let name := s.takeWhile isNameChar
  match s.dropWhile isNameChar with
  | '\x7d' :: rest => some (name, [], rest)
  | ':' :: '-' :: more =>
    match more.dropWhile fun c => c != '\x7d' with
    | _ :: rest => some (name, more.takeWhile fun c => c != '\x7d', rest)
    | [] => none
  | _ => none

/-- Replaces the references in a value. A variable that is named without a value counts as empty. -/
def expand (known : String → Option (Option String)) : Nat → List Char → List Char
  | steps + 1, '$' :: '\x7b' :: cs =>
    match reference? cs with
    | some (name, fallback, rest) =>
      let text := match known (String.ofList name) with
        | some (some t) => t.toList
        | some none => []
        | none => fallback
      text ++ expand known steps rest
    | none => '$' :: expand known steps ('\x7b' :: cs)
  | steps + 1, c :: cs => c :: expand known steps cs
  | _, _ => []

/-- The value that a name has for a reference: that of the file, and else of the environment. -/
def known (environment : List (String × String)) (table : List (String × Option String))
    (name : String) : Option (Option String) :=
  (table.lookup name).or ((environment.lookup name).map some)

/-- The variables of a file. References see those above in the file, and then the environment. -/
def entries (environment : List (String × String)) (s : String) : List (String × Option String) :=
  (bindings s).foldl (fun table b =>
    placeEntry b.key (b.value.map fun t =>
      String.ofList (expand (known environment table) (t.length + 1) t.toList)) table) []

end PlainJson.Dotenv
