import PlainJson.Text.Quoted

/-!
A small tree of files below one directory. A path is the list of its names as they are written;
empty names and single points are dropped, and two points go back by one name. What lies outside of
the directory can be reached, but only what is inside is listed. Directories that were made stay,
and a file is never turned into a directory.
-/
set_option autoImplicit false

namespace PlainJson

/-- The names in order. A path from the root of all files has an empty name in front. -/
abbrev FilePath := List String

namespace FilePath

/-- The names between the slashes. The characters of the name at hand are kept in reverse. -/
def splitNames {α : Type} [DecidableEq α] (slash : α) : List α → List α → List (List α)
  | [], name => [name.reverse]
  | c :: cs, name =>
    if c = slash then name.reverse :: splitNames slash cs [] else splitNames slash cs (c :: name)

def isSilent {α : Type} [DecidableEq α] (point : α) (name : List α) : Bool :=
  name == [] || name == [point]

def namesOf {α : Type} [DecidableEq α] (slash point : α) (cs : List α) : List (List α) :=
  (if cs.head? == some slash then [[]] else []) ++
    (splitNames slash cs []).filter fun n => !isSilent point n

def ofString (s : String) : FilePath := (namesOf '/' '.' s.toList).map String.ofList

/-- A path that ends in a slash, or in a point as its last name, stands for a directory. -/
def endsInDirectory (s : String) : Bool :=
  ((splitNames '/' s.toList []).getLast?.map (isSilent '.')).getD true

def parent (p : FilePath) : FilePath := p.dropLast

def shown : FilePath → String
  | [] => "."
  | [""] => "/"
  | [n] => n
  | n :: rest => n ++ "/" ++ shown rest

/-- One step down from a place, or back up for two points. There is nothing above the root. -/
def down (place : FilePath) (name : String) : FilePath :=
  if name = ".." then
    if place = [""] then place
    else if place.getLast?.all (· == "..") then place ++ [name]
    else place.dropLast
  else place ++ [name]

/-- The place that a path leads to, without steps back to where it has been. -/
def place (p : FilePath) : FilePath := p.foldl down []

/-- Places that are above the directory, or at the root. -/
def isAbove (p : FilePath) : Bool := p == [""] || p.all (· == "..")

def isInside (p : FilePath) : Bool := p.head? != some "" && p.head? != some ".."

/-- The most bytes that a name may have. -/
def maxName : Nat := 255

def isTooLong (name : String) : Bool := decide (maxName < name.utf8ByteSize)

def hasNul (p : FilePath) : Bool := p.any fun n => n.toList.contains '\x00'

example : place (ofString "a/../b//./c") = ["b", "c"] ∧ shown (ofString "/a/b/") = "/a/b" := by
  decide +kernel

end FilePath

inductive FileError where
  | exists (path : FilePath)
  | notDirectory (path : FilePath)
  | isDirectory (path : FilePath)
  | nameTooLong (path : FilePath)
  | nulInPath
  deriving DecidableEq, Repr

def FileError.message : FileError → String
  | .exists p => "[Errno 17] File exists: " ++ Text.quoted p.shown
  | .notDirectory p => "[Errno 20] Not a directory: " ++ Text.quoted p.shown
  | .isDirectory p => "[Errno 21] Is a directory: " ++ Text.quoted p.shown
  | .nameTooLong p => "[Errno 36] File name too long: " ++ Text.quoted p.shown
  | .nulInPath => "embedded null byte"

structure FileTree where
  files : List (FilePath × String)
  directories : List FilePath
  /-- How many directories can be made one inside the other in one go, if there is a limit. -/
  room : Option Nat
  deriving DecidableEq, Repr

namespace FileTree

def empty : FileTree := ⟨[], [], none⟩

def isFile (t : FileTree) (p : FilePath) : Bool := t.files.any fun e => e.1 == p

def isDirectory (t : FileTree) (p : FilePath) : Bool := p.isAbove || t.directories.contains p

/-- The files inside the directory. -/
def listed (t : FileTree) : List (FilePath × String) := t.files.filter fun e => e.1.isInside

/-- The place of a path each of whose names but the last is a directory. -/
def reach? (t : FileTree) : FilePath → List String → Option FilePath
  | here, [] => some here
  | here, [n] => some (here.down n)
  | here, n :: rest => if t.isDirectory (here.down n) then t.reach? (here.down n) rest else none

/-- What a file holds, if the path as it is written leads to one. -/
def content? (t : FileTree) (s : String) : Option String :=
  if FilePath.endsInDirectory s then none
  else (t.reach? [] (FilePath.ofString s)).bind fun p => t.files.lookup p

def addDirectory (t : FileTree) (p : FilePath) : FileTree :=
  { t with directories := t.directories ++ [p] }

/-- Goes down by the names and makes what is missing on the way. What cannot be passed or made is
blamed on the path `asked`, or on the path so far once a directory was made. -/
def makeBelow (t : FileTree) (asked : Option FilePath) (here : FilePath) :
    List String → Except FileError Unit × FileTree
  | [] => (.ok (), t)
  | n :: rest =>
    let next := here ++ [n]
    let blamed := asked.getD next
    if FilePath.isTooLong n then (.error (.nameTooLong blamed), t)
    else if t.isDirectory next.place then t.makeBelow asked next rest
    else if t.isFile next.place then
      (.error (if blamed = next then .exists blamed else .notDirectory blamed), t)
    else (t.addDirectory next.place).makeBelow none next rest

/-- How many directories there are to make on the way down by the names. -/
def missing (t : FileTree) (here : FilePath) : List String → Nat
  | [] => 0
  | n :: rest =>
    let next := here ++ [n]
    if FilePath.isTooLong n then 0
    else if t.isDirectory next.place then t.missing next rest
    else if t.isFile next.place then 0
    else rest.length + 1

def isTooDeep (t : FileTree) (p : FilePath) : Bool :=
  !p.hasNul && t.room.any fun room => decide (room < t.missing [] p)

/-- Makes a directory and those above it. One that is there already is no error; what was made
before an error stays. -/
def makeDirectory (t : FileTree) (p : FilePath) : Except FileError Unit × FileTree :=
  if p.hasNul then (.error .nulInPath, t) else t.makeBelow (some p) [] p

/-- Puts a file in the order of the written paths. -/
def insertFile (p : FilePath) (s : String) : List (FilePath × String) → List (FilePath × String)
  | [] => [(p, s)]
  | e :: rest => if p.shown < e.1.shown then (p, s) :: e :: rest else e :: insertFile p s rest

def withFile (t : FileTree) (p : FilePath) (s : String) : FileTree :=
  { t with files := insertFile p s t.files }

/-- Opens a file to write at its end, and makes it if it is not there. -/
def openFile (t : FileTree) (p : FilePath) : Except FileError FileTree :=
  if p.hasNul then .error .nulInPath
  else if t.isDirectory p.place then .error (.isDirectory p)
  else if t.isFile p.place then .ok t
  else if (p.getLast?.map FilePath.isTooLong).getD false then .error (.nameTooLong p)
  else .ok (t.withFile p.place "")

def append (t : FileTree) (p : FilePath) (s : String) : FileTree :=
  { t with files := t.files.map fun e => if e.1 == p then (e.1, e.2 ++ s) else e }

/-- Opens a file after making the directories above it. -/
def openBelow (t : FileTree) (p : FilePath) : Except FileError Unit × FileTree :=
  match t.makeDirectory p.parent with
  | (.error e, made) => (.error e, made)
  | (.ok (), made) =>
    match made.openFile p with
    | .error e => (.error e, made)
    | .ok opened => (.ok (), opened)

end FileTree

end PlainJson
