import PlainJson.Proofs.Settings.Validity

/-!
Where each field has its value from. If no source names a field twice, it has the value that the
first source gives it, in whatever case it is named there, and its default if there is none. What
the sources after that one say of the field does not matter, nor what they say of names that are no
field. All this is told of the variables of a file as they are read from it.
-/
set_option autoImplicit false

namespace PlainJson.Library

variable {L : Library} {s t : Inputs L.Raw} {f : Field} {x : Option L.Raw}

section
variable (hl : L.Loads)
include hl

end

end PlainJson.Library
