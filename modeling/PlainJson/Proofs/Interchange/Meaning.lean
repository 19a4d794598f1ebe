import PlainJson.Parser.Run
import PlainJson.Value
import PlainJson.Proofs.Interchange.Syntax

/-!
What trees of tokens mean, and which of them are plain: those of which documents can be made, where
nothing is empty, no number is more than its digits and no double quote is escaped.
-/
set_option autoImplicit false

namespace PlainJson.Interchange

open PlainJson.Text

/-- The text between the quotes as it is written. -/
def rawText (ps : List Piece) : String := String.ofList (ps.flatMap Piece.raw)

namespace Piece

def hexValue (c : Char) : Nat :=
  if c.isDigit then digitValue c
  else if 'a'.toNat ≤ c.toNat then c.toNat - 'a'.toNat + 10
  else c.toNat - 'A'.toNat + 10

def unit (a b c d : Char) : Nat :=
  [a, b, c, d].foldl (fun n h => 16 * n + hexValue h) 0

/-- What a backslash and this character stand for. -/
def meaning : Char → Char
  | 'b' => '\x08'
  | 'f' => '\x0c'
  | 'n' => '\n'
  | 'r' => '\r'
  | 't' => '\t'
  | c => c

def isHigh (n : Nat) : Bool := 0xd800 ≤ n && n ≤ 0xdbff

def isLow (n : Nat) : Bool := 0xdc00 ≤ n && n ≤ 0xdfff

/-- Half of a pair alone is no character. The replacement character stands for it. -/
def charOf (n : Nat) : Char := if n.isValidChar then Char.ofNat n else '\ufffd'

/-- The characters that are meant. Two units that are a pair are one character. -/
def decode : List Piece → List Char
  | [] => []
  | .plain c :: ps => c :: decode ps
  | .short c :: ps => meaning c :: decode ps
  | .code a b c d :: .code e f g h :: ps =>
    if isHigh (unit a b c d) && isLow (unit e f g h) then
      charOf (0x10000 + (unit a b c d - 0xd800) * 0x400 + (unit e f g h - 0xdc00)) :: decode ps
    else charOf (unit a b c d) :: decode (.code e f g h :: ps)
  | .code a b c d :: ps => charOf (unit a b c d) :: decode ps

example : decode [.plain 'a', .short 'n', .code '0' '0' 'e' '9'] = ['a', '\n', 'é'] := by
  decide +kernel

example : decode [.code 'd' '8' '3' 'd', .code 'D' 'E' '0' '0'] = [Char.ofNat 0x1f600] := by
  decide +kernel

end Piece

def decodedText (ps : List Piece) : String := String.ofList (Piece.decode ps)

/-- The number of a token that is whole. -/
def whole? : List Char → Option Int
  | '-' :: ds => if ds.all Char.isDigit then some (-(decimalValue ds : Int)) else none
  | ds => if ds.all Char.isDigit then some (decimalValue ds : Int) else none

namespace Tree

section
variable (text : List Piece → String) (real : List Char → Value)

mutual

/-- The value of a tree, where `text` says what is meant by the pieces of a text and `real` what
number is meant by a token that is not whole. -/
def value : Tree → Value
  | .null => .null
  | .bool b => .bool b
  | .number cs => (whole? cs).elim (real cs) .int
  | .text ps => .text (text ps)
  | .array ts => .list (values ts)
  | .object ms => .dict (entriesOf (entries ms))

def values : List Tree → List Value
  | [] => []
  | t :: ts => value t :: values ts

def entries : List (List Piece × Tree) → List (String × Value)
  | [] => []
  | (ps, t) :: ms => (text ps, value t) :: entries ms

end

end

/-- The trees inside a tree, and the tree itself. -/
inductive Has : Tree → Tree → Prop where
  | self {t : Tree} : Has t t
  | item {ts : List Tree} {t w : Tree} : t ∈ ts → Has t w → Has (.array ts) w
  | field {ms : List (List Piece × Tree)} {m : List Piece × Tree} {w : Tree} :
      m ∈ ms → Has m.2 w → Has (.object ms) w

/-- The texts inside a tree, keys included. -/
inductive HasText (t : Tree) (ps : List Piece) : Prop where
  | value : t.Has (.text ps) → HasText t ps
  | key {ms : List (List Piece × Tree)} {u : Tree} :
      t.Has (.object ms) → (ps, u) ∈ ms → HasText t ps

def Unescaped (t : Tree) : Prop := ∀ ps, t.HasText ps → .short '"' ∉ ps

structure Plain (t : Tree) : Prop where
  numbers : ∀ ds, t.Has (.number ds) → AllOf Char.isDigit ds ∧ ds.length ≤ maxDigits
  arrays : ¬ t.Has (.array [])
  objects : ¬ t.Has (.object [])
  texts : t.Unescaped

variable {t w : Tree} {ts : List Tree} {ms : List (List Piece × Tree)} {ps : List Piece}
  {cs : List Char}

theorem has_array : (array ts).Has w ↔ w = .array ts ∨ ∃ t ∈ ts, t.Has w := by
  refine ⟨fun hh => ?_, fun hh => ?_⟩
  · cases hh with
    | self => exact .inl rfl
    | item hm hw => exact .inr ⟨_, hm, hw⟩
  · rcases hh with rfl | ⟨t, hm, hw⟩
    · exact .self
    · exact .item hm hw

theorem has_object : (object ms).Has w ↔ w = .object ms ∨ ∃ m ∈ ms, m.2.Has w := by
  refine ⟨fun hh => ?_, fun hh => ?_⟩
  · cases hh with
    | self => exact .inl rfl
    | field hm hw => exact .inr ⟨_, hm, hw⟩
  · rcases hh with rfl | ⟨m, hm, hw⟩
    · exact .self
    · exact .field hm hw

theorem has_number : (number cs).Has w ↔ w = .number cs := by
  refine ⟨fun hh => ?_, fun hh => hh ▸ .self⟩
  cases hh
  rfl

theorem has_text : (Tree.text ps).Has w ↔ w = .text ps := by
  refine ⟨fun hh => ?_, fun hh => hh ▸ .self⟩
  cases hh
  rfl

theorem HasText.trans (h : w.HasText ps) (hs : ∀ u, w.Has u → t.Has u) : t.HasText ps := by
  cases h with
  | value hv => exact .value (hs _ hv)
  | key ho hm => exact .key (hs _ ho) hm

theorem Unescaped.part (h : t.Unescaped) (hs : ∀ u, w.Has u → t.Has u) : w.Unescaped :=
  fun ps hp => h ps (hp.trans hs)

theorem Plain.part (h : t.Plain) (hs : ∀ u, w.Has u → t.Has u) : w.Plain where
  numbers ds hd := h.numbers ds (hs _ hd)
  arrays ha := h.arrays (hs _ ha)
  objects ho := h.objects (hs _ ho)
  texts := h.texts.part hs

theorem unescaped_of_leaf (ht : ∀ ps, ¬ t.Has (.text ps)) (ho : ∀ ms, ¬ t.Has (.object ms)) :
    t.Unescaped := by
  intro ps hp
  cases hp with
  | value hv => exact (ht ps hv).elim
  | key hk => exact (ho _ hk).elim

theorem unescaped_null : Tree.null.Unescaped :=
  unescaped_of_leaf (fun _ h => by cases h) fun _ h => by cases h

theorem unescaped_bool (b : Bool) : (Tree.bool b).Unescaped :=
  unescaped_of_leaf (fun _ h => by cases h) fun _ h => by cases h

theorem unescaped_number : (number cs).Unescaped :=
  unescaped_of_leaf (fun _ h => by cases has_number.1 h) fun _ h => by cases has_number.1 h

theorem unescaped_text : (Tree.text ps).Unescaped ↔ .short '"' ∉ ps := by
  refine ⟨fun hh => hh ps (.value .self), fun hh qs hq => ?_⟩
  cases hq with
  | value hv =>
    cases has_text.1 hv
    exact hh
  | key ho => cases has_text.1 ho

theorem unescaped_array : (array ts).Unescaped ↔ ∀ t ∈ ts, t.Unescaped := by
  refine ⟨fun hh t ht => hh.part fun u hu => .item ht hu, fun hh ps hp => ?_⟩
  cases hp with
  | value hv =>
    rcases has_array.1 hv with hv | ⟨t, ht, hv⟩
    · cases hv
    · exact hh t ht ps (.value hv)
  | key ho hm =>
    rcases has_array.1 ho with ho | ⟨t, ht, ho⟩
    · cases ho
    · exact hh t ht ps (.key ho hm)

theorem unescaped_object :
    (object ms).Unescaped ↔ ∀ m ∈ ms, .short '"' ∉ m.1 ∧ m.2.Unescaped := by
  refine ⟨fun hh m hm => ?_, fun hh ps hp => ?_⟩
  · exact ⟨hh m.1 (.key .self hm), hh.part fun u hu => .field hm hu⟩
  cases hp with
  | value hv =>
    rcases has_object.1 hv with hv | ⟨m, hm, hv⟩
    · cases hv
    · exact (hh m hm).2 ps (.value hv)
  | key ho hq =>
    rcases has_object.1 ho with ho | ⟨m, hm, ho⟩
    · cases ho
      exact (hh _ hq).1
    · exact (hh m hm).2 ps (.key ho hq)

/-- A tree is plain if it is neither a number nor empty and what else is in it is in plain parts. -/
theorem plain_of_parts (hp : ∀ u, t.Has u → u = t ∨ ∃ v : Tree, v.Plain ∧ v.Has u)
    (hn : ∀ cs, number cs ≠ t) (ha : array [] ≠ t) (ho : object [] ≠ t) (hu : t.Unescaped) :
    t.Plain where
  numbers cs h := by
    rcases hp _ h with he | ⟨v, hv, h⟩
    · exact (hn cs he).elim
    · exact hv.numbers cs h
  arrays h := by
    rcases hp _ h with he | ⟨v, hv, h⟩
    · exact ha he
    · exact hv.arrays h
  objects h := by
    rcases hp _ h with he | ⟨v, hv, h⟩
    · exact ho he
    · exact hv.objects h
  texts := hu

theorem plain_null : Tree.null.Plain := by
  refine plain_of_parts (fun u h => ?_) (by simp) (by simp) (by simp) unescaped_null
  cases h
  exact .inl rfl

theorem plain_bool (b : Bool) : (Tree.bool b).Plain := by
  refine plain_of_parts (fun u h => ?_) (by simp) (by simp) (by simp) (unescaped_bool b)
  cases h
  exact .inl rfl

theorem plain_number :
    (number cs).Plain ↔ AllOf Char.isDigit cs ∧ cs.length ≤ maxDigits := by
  refine ⟨fun hh => hh.numbers cs .self, fun hh => ⟨fun ds hd => ?_, ?_, ?_, unescaped_number⟩⟩
  · cases has_number.1 hd
    exact hh
  · intro h
    cases has_number.1 h
  · intro h
    cases has_number.1 h

theorem plain_text : (Tree.text ps).Plain ↔ .short '"' ∉ ps := by
  refine ⟨fun hh => unescaped_text.1 hh.texts, fun hh => ?_⟩
  exact plain_of_parts (fun u h => .inl (has_text.1 h)) (by simp) (by simp) (by simp)
    (unescaped_text.2 hh)

theorem plain_array : (array ts).Plain ↔ ts ≠ [] ∧ ∀ t ∈ ts, t.Plain := by
  refine ⟨fun hh => ⟨fun hn => hh.arrays (hn ▸ .self), fun t ht => ?_⟩, fun hh => ?_⟩
  · exact hh.part fun u hu => .item ht hu
  · obtain ⟨hn, hp⟩ := hh
    refine plain_of_parts (fun u hu => ?_) (by simp) (by simpa [eq_comm] using hn) (by simp)
      (unescaped_array.2 fun t ht => (hp t ht).texts)
    rcases has_array.1 hu with he | ⟨t, ht, hu⟩
    · exact .inl he
    · exact .inr ⟨t, hp t ht, hu⟩

theorem plain_object :
    (object ms).Plain ↔ ms ≠ [] ∧ ∀ m ∈ ms, .short '"' ∉ m.1 ∧ m.2.Plain := by
  refine ⟨fun hh => ⟨fun hn => hh.objects (hn ▸ .self), fun m hm => ?_⟩, fun hh => ?_⟩
  · exact ⟨(unescaped_object.1 hh.texts m hm).1, hh.part fun u hu => .field hm hu⟩
  · obtain ⟨hn, hp⟩ := hh
    refine plain_of_parts (fun u hu => ?_) (by simp) (by simp) (by simpa [eq_comm] using hn)
      (unescaped_object.2 fun m hm => ⟨(hp m hm).1, (hp m hm).2.texts⟩)
    rcases has_object.1 hu with he | ⟨m, hm, hu⟩
    · exact .inl he
    · exact .inr ⟨m.2, (hp m hm).2, hu⟩

end Tree

end PlainJson.Interchange
