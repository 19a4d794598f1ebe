import PlainJson.Parser.Run
import PlainJson.Value

/-!
What can be done with a value and asked of a value. Texts, lists, tuples and tables have parts; a
value without the parts that are needed is a misuse, which names the kind of the value.
-/
set_option autoImplicit false

namespace PlainJson

inductive Reshape where
  | const (v : Value)
  | tag (label : String)
  | join
  | size
  | item (i : Int)
  | dict
  deriving Repr

inductive Check where
  | oneOf (vs : List Value)
  | noneOf (vs : List Value)
  | equals (v : Value)
  | minSize (n : Int)
  | always
  | never
  deriving Repr

namespace Value

/-- The items of a text are its characters, and those of a table its keys. -/
def items? : Value → Option (List Value)
  | .list xs | .tuple xs => some xs
  | .text s => some (s.toList.map fun c => .text (String.singleton c))
  | .dict es => some (es.map fun e => .text e.1)
  | _ => none

def size (x : Value) : Except Misuse Nat :=
  match x.items? with
  | some xs => .ok xs.length
  | none => .error (.noSize x.kind)

/-- The name of the kind where positions are meant. -/
def positional : Value → String
  | .text _ => "string"
  | x => x.kind

/-- A position below zero is counted from the end. A table has no positions. -/
def item (x : Value) (i : Int) : Except Misuse Value :=
  match x, x.items? with
  | .dict _, _ => .error (.noKey i)
  | _, none => .error (.noItems x.kind)
  | _, some xs =>
    let j := if 0 ≤ i then i else xs.length + i
    match if 0 ≤ j then xs[j.toNat]? else none with
    | some y => .ok y
    | none => .error (.outside x.positional)

/-- All items must be texts; `k` of them were joined before. -/
def joinFrom (k : Nat) : List Value → Except Misuse (List Char)
  | [] => .ok []
  | .text s :: xs => (joinFrom (k + 1) xs).map (s.toList ++ ·)
  | x :: _ => .error (.notText k x.kind)

def join (x : Value) : Except Misuse String :=
  match x.items? with
  | some xs => (joinFrom 0 xs).map String.ofList
  | none => .error .notJoined

/-- The entry that the item at place `k` stands for. Only entries with a text for a key are kept. -/
def entryAt (k : Nat) (x : Value) : Except Misuse (Option (String × Value)) :=
  match x.items? with
  | none => .error (.noPair k)
  | some [.text key, v] => .ok (some (key, v))
  | some [.list _, _] => .error (.noKeyOf "list")
  | some [.dict _, _] => .error (.noKeyOf "dict")
  | some [_, _] => .ok none
  | some xs => .error (.wrongPair k xs.length)

def pairsFrom (k : Nat) : List Value → Except Misuse (List (String × Value))
  | [] => .ok []
  | x :: xs =>
    match entryAt k x with
    | .error e => .error e
    | .ok entry => (pairsFrom (k + 1) xs).map (entry.toList ++ ·)

/-- The table of a list of pairs; a table is its own. -/
def table (x : Value) : Except Misuse Value :=
  match x, x.items? with
  | .dict es, _ => .ok (.dict es)
  | _, some xs => (pairsFrom 0 xs).map fun ps => .dict (entriesOf ps)
  | _, none => .error (.notIterable x.kind)

end Value

def Reshape.apply : Reshape → Value → Except Misuse Value
  | .const v, _ => .ok v
  | .tag label, x => .ok (.list [.text label, x])
  | .join, x => x.join.map .text
  | .size, x => x.size.map fun n => .int n
  | .item i, x => x.item i
  | .dict, x => x.table

def Check.holds : Check → Value → Except Misuse Bool
  | .oneOf vs, x => .ok (vs.any x.same)
  | .noneOf vs, x => .ok (!vs.any x.same)
  | .equals v, x => .ok (x.same v)
  | .minSize n, x => x.size.map fun k => decide (n ≤ (k : Int))
  | .always, _ => .ok true
  | .never, _ => .ok false

end PlainJson
