/-!
Tables as lists of entries, each a key and a value, with no key twice. One kind of table is kept in
the order of the keys, so that equal tables are equal lists; the other in the order in which the
keys first came.
-/
set_option autoImplicit false

namespace PlainJson

variable {β : Type}

/-- Writes an entry; the one that had this key before is gone. -/
def putEntry (key : String) (value : β) : List (String × β) → List (String × β)
  | [] => [(key, value)]
  | (k, v) :: rest =>
    if key < k then (key, value) :: (k, v) :: rest
    else if key = k then (key, value) :: rest
    else (k, v) :: putEntry key value rest

/-- The entries of a list of pairs, of which later ones replace earlier ones. -/
def entriesOf (pairs : List (String × β)) : List (String × β) :=
  pairs.foldl (fun table p => putEntry p.1 p.2 table) []

theorem lookup_putEntry_self (key : String) (value : β) (table : List (String × β)) :
    (putEntry key value table).lookup key = some value := by
  induction table with
  | nil => simp [putEntry]
  | cons e rest ih =>
    obtain ⟨k, v⟩ := e
    by_cases hl : key < k
    · simp [putEntry, hl]
    · by_cases he : key = k
      · subst he
        rw [putEntry, if_neg hl, if_pos rfl]
        simp
      · have hb : (key == k) = false := by simpa using he
        simp [putEntry, hl, he, List.lookup_cons, hb, ih]

theorem lookup_putEntry_ne {key other : String} (h : other ≠ key) (value : β)
    (table : List (String × β)) : (putEntry key value table).lookup other = table.lookup other := by
  have hb : (other == key) = false := by simpa using h
  induction table with
  | nil => simp [putEntry, List.lookup_cons, hb]
  | cons e rest ih =>
    obtain ⟨k, v⟩ := e
    by_cases hl : key < k
    · simp [putEntry, hl, List.lookup_cons, hb]
    · by_cases he : key = k
      · subst he
        rw [putEntry, if_neg hl, if_pos rfl]
        simp [List.lookup_cons, hb]
      · simp [putEntry, hl, he, List.lookup_cons, ih]

/-- Writes an entry in the place of the one with its key, or at the end if the key is new. -/
def placeEntry (key : String) (value : β) : List (String × β) → List (String × β)
  | [] => [(key, value)]
  | (k, v) :: rest =>
    if key = k then (key, value) :: rest else (k, v) :: placeEntry key value rest

/-- The entries of a list of pairs in their first places, of which later ones replace earlier
ones. -/
def placedEntries (pairs : List (String × β)) : List (String × β) :=
  pairs.foldl (fun table p => placeEntry p.1 p.2 table) []

end PlainJson
