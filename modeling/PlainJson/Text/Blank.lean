import PlainJson.Text.CodeRange

/-! White space: the characters that may stand around a value. The class holds every Unicode
space and line end and the four ASCII separators U+001C to U+001F. -/
set_option autoImplicit false

namespace PlainJson.Text

def blankTable : List CodeRange :=
  [⟨0x9, 0xd⟩, ⟨0x1c, 0x20⟩, ⟨0x85, 0x85⟩, ⟨0xa0, 0xa0⟩, ⟨0x1680, 0x1680⟩, ⟨0x2000, 0x200a⟩,
   ⟨0x2028, 0x2029⟩, ⟨0x202f, 0x202f⟩, ⟨0x205f, 0x205f⟩, ⟨0x3000, 0x3000⟩]

def isBlank (c : Char) : Bool := inTable blankTable c.toNat

theorem isBlank_of_isWhitespace (c : Char) (h : c.isWhitespace = true) : isBlank c = true := by
  simp only [Char.isWhitespace, Bool.or_eq_true, decide_eq_true_eq] at h
  rcases h with ((rfl | rfl) | rfl) | rfl <;> decide

example : (blankTable.map fun r => r.high + 1 - r.low).sum = 29 := by decide

/-- The class of Unicode's White_Space property, which leaves out the ASCII separators. -/
def isUnicodeSpace (c : Char) : Bool :=
  isBlank c && !(decide (0x1c ≤ c.toNat) && decide (c.toNat ≤ 0x1f))

def trimSpace (s : List Char) : List Char :=
  ((s.dropWhile isUnicodeSpace).reverse.dropWhile isUnicodeSpace).reverse

end PlainJson.Text
