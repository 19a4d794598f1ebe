/-! Snippets: a text cut to a number of characters, the cut marked with three points. -/
set_option autoImplicit false

namespace PlainJson.Text

def ellipsis : List Char := ['.', '.', '.']

/-- A negative count says how many characters to leave out at the end. -/
def takeSigned (count : Int) (s : List Char) : List Char :=
  if 0 ≤ count then s.take count.toNat else s.take (s.length + count).toNat

def snippet (limit : Int) (s : List Char) : List Char :=
  if (s.length : Int) ≤ limit then s else takeSigned limit s ++ ellipsis

theorem snippet_of_le {limit : Int} {s : List Char} (h : (s.length : Int) ≤ limit) :
    snippet limit s = s := by
  simp [snippet, h]

theorem snippet_of_lt {limit : Nat} {s : List Char} (h : limit < s.length) :
    snippet limit s = s.take limit ++ ellipsis := by
  have hn : ¬ s.length ≤ limit := by omega
  simp [snippet, takeSigned, hn]

end PlainJson.Text
