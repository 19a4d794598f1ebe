import PlainJson.Text.Quoted

/-!
A view is a text and a position in it, and stands for the part of the text from there on. The
position is a plain integer: one below zero counts from the end of the text, one beyond the end
leaves nothing. A view within its text behaves as the list `rest` of the characters ahead.
-/
set_option autoImplicit false

namespace PlainJson

structure View where
  text : Array Char
  pos : Int
  deriving DecidableEq, Repr

/-- What can go wrong in a view that is not within its text. -/
inductive ViewFault where
  | negativeLength
  | outsideText
  deriving DecidableEq, Repr

namespace View

def ofString (s : String) (pos : Int) : View := ⟨s.toList.toArray, pos⟩

/-- Where the characters ahead begin; a position counted from the end stops at the start. -/
def start (v : View) : Nat :=
  if 0 ≤ v.pos then v.pos.toNat else (v.text.size + v.pos).toNat

def rest (v : View) : List Char := v.text.toList.drop v.start

def advance (v : View) (count : Int) : View := { v with pos := v.pos + count }

def length (v : View) : Except ViewFault Nat :=
  if v.pos ≤ v.text.size then .ok (v.text.size - v.pos).toNat else .error .negativeLength

/-- A position below zero is counted from the end, and only once round. -/
def peek (v : View) : Except ViewFault Char :=
  let i := if 0 ≤ v.pos then v.pos else v.text.size + v.pos
  if 0 ≤ i then
    match v.text[i.toNat]? with
    | some c => .ok c
    | none => .error .outsideText
  else .error .outsideText

def agrees (text : Array Char) : Nat → List Char → Bool
  | _, [] => true
  | i, c :: cs =>
    match text[i]? with
    | some d => d == c && agrees text (i + 1) cs
    | none => false

/-- Beyond the end of the text nothing matches, the empty text included. -/
def startsWith (v : View) (s : List Char) : Bool :=
  decide (v.pos ≤ v.text.size) && agrees v.text v.start s

def shown (v : View) : List Char :=
  "Input(".toList ++ Text.signedDecimal v.pos ++ [',', ' '] ++ Text.quote v.rest ++ [')']

def Within (v : View) : Prop := 0 ≤ v.pos ∧ v.pos ≤ v.text.size

/-- The number of characters ahead, counted without regard to a position below zero. -/
def room (v : View) : Nat := (v.text.size - v.pos).toNat

/-- More than the number of steps that can be taken from here without coming back to a position. -/
def reach (v : View) : Nat := 2 * v.text.size + v.pos.natAbs + 2

@[simp] theorem advance_text (v : View) (n : Int) : (v.advance n).text = v.text := rfl

@[simp] theorem advance_pos (v : View) (n : Int) : (v.advance n).pos = v.pos + n := rfl

theorem room_lt_reach (v : View) : v.room < v.reach := by
  simp only [room, reach]; omega

theorem agrees_eq (text : Array Char) (i : Nat) (s : List Char) :
    agrees text i s = s.isPrefixOf (text.toList.drop i) := by
  induction s generalizing i with
  | nil => simp [agrees]
  | cons c s ih =>
    by_cases h : i < text.size
    · have hd : text.toList.drop i = text[i] :: text.toList.drop (i + 1) := by
        rw [List.drop_eq_getElem_cons (by simpa using h)]; simp
      rw [hd]
      simp [agrees, h, ih, List.isPrefixOf, Bool.beq_comm]
    · have hd : text.toList.drop i = [] := List.drop_eq_nil_of_le (by simp; omega)
      simp [agrees, h, hd]

theorem startsWith_eq {v : View} (h : v.pos ≤ v.text.size) (s : List Char) :
    v.startsWith s = s.isPrefixOf v.rest := by
  simp [startsWith, h, agrees_eq, rest]

theorem start_of_within {v : View} (h : v.Within) : v.start = v.pos.toNat := by
  simp [start, h.1]

theorem length_eq {v : View} (h : v.Within) : v.length = .ok v.rest.length := by
  have h₁ := h.1
  have h₂ := h.2
  simp only [length, h₂, if_true, rest, List.length_drop, start_of_within h, Array.length_toList]
  congr 1
  omega

theorem peek_eq {v : View} (h : v.Within) (c : Char) (cs : List Char) (hr : v.rest = c :: cs) :
    v.peek = .ok c := by
  have h₁ := h.1
  have hc : (v.text.toList.drop v.pos.toNat)[0]? = some c := by
    rw [← start_of_within h, ← rest, hr]; rfl
  rw [List.getElem?_drop] at hc
  simp only [Nat.add_zero, Array.getElem?_toList] at hc
  simp [peek, h₁, hc]

end View

end PlainJson
