/-!
Classes of characters given by tables of code points. A table lists closed ranges in ascending
order, so a search stops at the first range that starts beyond the code it looks for.
-/
set_option autoImplicit false

namespace PlainJson.Text

/-- Both ends belong to the range. -/
structure CodeRange where
  low : Nat
  high : Nat
  deriving DecidableEq, Repr

def inTable : List CodeRange → Nat → Bool
  | [], _ => false
  | r :: rs, n => if n < r.low then false else if n ≤ r.high then true else inTable rs n

end PlainJson.Text
