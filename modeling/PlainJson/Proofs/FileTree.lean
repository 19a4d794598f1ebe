import PlainJson.PathText

/-!
What can go wrong when a file is opened. If it is not the system that complains, then the path as it
is given has a NUL or a surrogate by itself, or there are too many directories to make; everything
else that goes wrong is a matter of the files and directories that are there.
-/
set_option autoImplicit false

namespace PlainJson

namespace FilePath

section
variable {α : Type} [DecidableEq α] {slash point c : α} {cs start name : List α}

end

end FilePath

namespace PathText

variable {p : PathText} {names : List PathText} {path : FilePath}

end PathText

namespace FileTree

variable {t : FileTree} {p : FilePath}

end FileTree

end PlainJson
