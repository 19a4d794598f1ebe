import PlainJson.FileTree

/-!
Paths as they are given. Besides characters they can hold surrogates by themselves, which no
encoding has. Such a path is given up when it comes to the name that has one; so is a path below
which there are too many directories to make. Neither of the two is an error of the system.
-/
set_option autoImplicit false

namespace PlainJson

/-- The surrogates that stand for no byte of a name. -/
def isLone (code : Nat) : Bool :=
  decide (0xd800 ≤ code) && decide (code < 0xe000) &&
    !(decide (0xdc80 ≤ code) && decide (code < 0xdd00))

inductive PathPoint where
  | char (c : Char)
  | lone (code : Nat) (h : isLone code = true)
  deriving DecidableEq, Repr

abbrev PathText := List PathPoint

namespace PathPoint

def char? : PathPoint → Option Char
  | .char c => some c
  | .lone _ _ => none

/-- Where a surrogate cannot be written, its code is. -/
def shown : PathPoint → List Char
  | .char c => [c]
  | .lone code _ => Text.escapeCode code

end PathPoint

namespace PathText

def ofString (s : String) : PathText := s.toList.map .char

instance : Coe String PathText := ⟨ofString⟩

instance : Coe (Option String) (Option PathText) := ⟨Option.map ofString⟩

def shown (p : PathText) : String := String.ofList (p.flatMap PathPoint.shown)

def names (p : PathText) : List PathText := FilePath.namesOf (.char '/') (.char '.') p

def joined (names : List PathText) : PathText := [PathPoint.char '/'].intercalate names

/-- No surrogate stands by itself. -/
def isPlain (p : PathText) : Bool := p.all fun x => x.char?.isSome

def plainText (p : PathText) : String := String.ofList (p.filterMap PathPoint.char?)

/-- There is no way to write a name that is not plain. -/
def encode (names : List PathText) : Option FilePath :=
  if names.all isPlain then some (names.map plainText) else none

/-- The surrogates that come first, with the place where they begin. -/
def firstLone (p : PathText) : Nat × PathText :=
  let before := p.takeWhile fun x => x.char?.isSome
  (before.length, (p.drop before.length).takeWhile fun x => x.char?.isNone)

end PathText

inductive OpenError where
  | file (e : FileError)
  | unencodable (path : PathText)
  | tooDeep
  deriving DecidableEq, Repr

namespace OpenError

def message : OpenError → String
  | .file e => e.message
  | .unencodable path =>
    let (start, run) := path.firstLone
    let blamed :=
      if run.length = 1 then "character '" ++ run.shown ++ "' in position " ++ toString start
      else "characters in position " ++ toString start ++ "-" ++ toString (start + run.length - 1)
    "'utf-8' codec can't encode " ++ blamed ++ ": surrogates not allowed"
  | .tooDeep => "maximum recursion depth exceeded"

/-- Whether it is the system that complains. -/
def isSystem : OpenError → Bool
  | .file .nulInPath | .unencodable _ | .tooDeep => false
  | .file _ => true

end OpenError

namespace FileTree

/-- Opens a file after making the directories above it. The path of these is written before that of
the file. -/
def openGiven (t : FileTree) (p : PathText) : Except OpenError FilePath × FileTree :=
  match PathText.encode p.names with
  | some path =>
    if t.isTooDeep path.parent then (.error .tooDeep, t)
    else
      match t.openBelow path with
      | (.error e, u) => (.error (.file e), u)
      | (.ok (), u) => (.ok path, u)
  | none =>
    match PathText.encode p.names.dropLast with
    | none => (.error (.unencodable (PathText.joined p.names.dropLast)), t)
    | some above =>
      if t.isTooDeep above then (.error .tooDeep, t)
      else
        match t.makeDirectory above with
        | (.error e, u) => (.error (.file e), u)
        | (.ok (), u) => (.error (.unencodable (PathText.joined p.names)), u)

end FileTree

end PlainJson
