import PlainJson.Entries

/-!
A table kept in the order of its keys is a finite map: two such tables in which every key has the
same value are the same list. Writing pairs one after another gives the table in which the last
value of every key is kept.
-/
set_option autoImplicit false

namespace PlainJson

variable {β : Type}

def Sorted (table : List (String × β)) : Prop := table.Pairwise fun a b => a.1 < b.1

/-- The table holds for every key of the pairs the last of its values, and nothing else. -/
structure KeepsLast (pairs table : List (String × β)) : Prop where
  sorted : Sorted table
  lookup : ∀ key, table.lookup key = pairs.reverse.lookup key

theorem mem_putEntry {key : String} {value : β} {table : List (String × β)} {e : String × β}
    (h : e ∈ putEntry key value table) : e = (key, value) ∨ e ∈ table := by
  induction table with
  | nil => simpa [putEntry] using h
  | cons d rest ih =>
    obtain ⟨k, v⟩ := d
    rw [putEntry] at h
    split at h
    · simpa using h
    · split at h
      · rcases List.mem_cons.1 h with h | h
        · exact .inl h
        · exact .inr (by simp [h])
      · rcases List.mem_cons.1 h with h | h
        · exact .inr (by simp [h])
        · exact (ih h).imp_right fun hm => by simp [hm]

theorem sorted_putEntry (key : String) (value : β) {table : List (String × β)}
    (h : Sorted table) : Sorted (putEntry key value table) := by
  induction table with
  | nil => simp [putEntry, Sorted]
  | cons d rest ih =>
    obtain ⟨k, v⟩ := d
    have hk := List.pairwise_cons.1 h
    rw [putEntry]
    split
    · rename_i hlt
      refine List.pairwise_cons.2 ⟨fun e he => ?_, h⟩
      rcases List.mem_cons.1 he with rfl | he
      · exact hlt
      · exact String.lt_trans hlt (hk.1 e he)
    · rename_i hlt
      split
      · rename_i heq
        subst heq
        exact List.pairwise_cons.2 hk
      · rename_i hne
        refine List.pairwise_cons.2 ⟨fun e he => ?_, ih hk.2⟩
        rcases mem_putEntry he with rfl | he
        · by_cases hkl : k < key
          · exact hkl
          · exact (hne (String.le_antisymm hkl hlt)).elim
        · exact hk.1 e he

theorem lookup_putEntry (key other : String) (value : β) (table : List (String × β)) :
    (putEntry key value table).lookup other =
      if other = key then some value else table.lookup other := by
  by_cases h : other = key
  · rw [h, lookup_putEntry_self, if_pos rfl]
  · rw [lookup_putEntry_ne h, if_neg h]

theorem entriesOf_concat (pairs : List (String × β)) (p : String × β) :
    entriesOf (pairs ++ [p]) = putEntry p.1 p.2 (entriesOf pairs) := by
  simp [entriesOf]

theorem keepsLast_reverse (pairs : List (String × β)) :
    KeepsLast pairs.reverse (entriesOf pairs.reverse) := by
  induction pairs with
  | nil => exact ⟨List.Pairwise.nil, fun _ => rfl⟩
  | cons p pairs ih =>
    rw [List.reverse_cons, entriesOf_concat]
    refine ⟨sorted_putEntry p.1 p.2 ih.sorted, fun key => ?_⟩
    rw [lookup_putEntry, ih.lookup, List.reverse_append, List.reverse_singleton,
      List.singleton_append, List.lookup_cons]
    by_cases hk : key = p.1
    · simp [hk]
    · have hb : (key == p.1) = false := by simpa using hk
      simp [hk, hb]

theorem keepsLast_entriesOf (pairs : List (String × β)) : KeepsLast pairs (entriesOf pairs) := by
  have h := keepsLast_reverse pairs.reverse
  rwa [List.reverse_reverse] at h

theorem lookup_eq_none_of_lt {key : String} {table : List (String × β)}
    (h : ∀ e ∈ table, key < e.1) : table.lookup key = none := by
  rw [List.lookup_eq_none_iff]
  intro e he
  have hne := String.ne_of_lt (h e he)
  simpa using hne

/-- No key of a table in order stands before the first. -/
theorem not_lt_first {k l : String} {x y : β} {table : List (String × β)}
    (h : Sorted ((l, y) :: table)) (hx : ((l, y) :: table).lookup k = some x) : ¬ k < l := by
  intro hlt
  have hn : ((l, y) :: table).lookup k = none := by
    apply lookup_eq_none_of_lt
    intro e he
    rcases List.mem_cons.1 he with rfl | he
    · exact hlt
    · exact String.lt_trans hlt ((List.pairwise_cons.1 h).1 e he)
  rw [hx] at hn
  cases hn

theorem sorted_ext {s t : List (String × β)} (hs : Sorted s) (ht : Sorted t)
    (h : ∀ key, s.lookup key = t.lookup key) : s = t := by
  induction s generalizing t with
  | nil =>
    cases t with
    | nil => rfl
    | cons e t =>
      obtain ⟨l, y⟩ := e
      simpa using h l
  | cons d s ih =>
    obtain ⟨k, x⟩ := d
    cases t with
    | nil => simpa using h k
    | cons e t =>
      obtain ⟨l, y⟩ := e
      have hkl : ¬ k < l := not_lt_first ht ((h k).symm.trans List.lookup_cons_self)
      have hlk : ¬ l < k := not_lt_first hs ((h l).trans List.lookup_cons_self)
      obtain rfl : k = l := String.le_antisymm hlk hkl
      have hxy : x = y := by simpa using h k
      have hks := List.pairwise_cons.1 hs
      have hkt := List.pairwise_cons.1 ht
      have htail : s = t := by
        refine ih hks.2 hkt.2 fun key => ?_
        by_cases hkey : key = k
        · rw [hkey, lookup_eq_none_of_lt hks.1, lookup_eq_none_of_lt hkt.1]
        · have hb : (key == k) = false := by simpa using hkey
          have hh := h key
          simpa only [List.lookup_cons, hb] using hh
      rw [hxy, htail]

theorem keepsLast_iff {pairs table : List (String × β)} :
    KeepsLast pairs table ↔ table = entriesOf pairs := by
  refine ⟨fun h => ?_, fun h => h ▸ keepsLast_entriesOf pairs⟩
  have he := keepsLast_entriesOf pairs
  exact sorted_ext h.sorted he.sorted fun key => (h.lookup key).trans (he.lookup key).symm

theorem mem_of_lookup {key : String} {value : β} {table : List (String × β)}
    (h : table.lookup key = some value) : (key, value) ∈ table := by
  obtain ⟨s, t, rfl, -⟩ := List.lookup_eq_some_iff.1 h
  simp

theorem lookup_eq_some_iff_mem {key : String} {value : β} {table : List (String × β)}
    (h : (table.map Prod.fst).Nodup) :
    table.lookup key = some value ↔ (key, value) ∈ table := by
  refine ⟨mem_of_lookup, fun hm => ?_⟩
  obtain ⟨s, t, rfl⟩ := List.append_of_mem hm
  refine List.lookup_eq_some_iff.2 ⟨s, t, rfl, fun e he => ?_⟩
  rw [List.map_append, List.nodup_append] at h
  have hne := h.2.2 e.1 (List.mem_map_of_mem he) key (by simp)
  simpa using fun hk => hne hk.symm

theorem Sorted.nodup {table : List (String × β)} (h : Sorted table) :
    (table.map Prod.fst).Nodup :=
  List.pairwise_map.2 (h.imp fun hlt => String.ne_of_lt hlt)

/-- Pairs with no key twice make the same table in whatever order they come. -/
theorem keepsLast_of_perm {pairs table : List (String × β)} (hs : Sorted table)
    (hp : pairs.Perm table) : KeepsLast pairs table := by
  have hr := (List.reverse_perm pairs).trans hp
  refine ⟨hs, fun key => Option.ext fun value => ?_⟩
  rw [lookup_eq_some_iff_mem hs.nodup, lookup_eq_some_iff_mem ((hr.map _).symm.nodup hs.nodup),
    hr.mem_iff]

section
variable {pairs table : List (String × β)}

theorem KeepsLast.mem (h : KeepsLast pairs table) {e : String × β} (he : e ∈ table) :
    e ∈ pairs := by
  have hl := (lookup_eq_some_iff_mem h.sorted.nodup).2 he
  rw [h.lookup] at hl
  exact List.mem_reverse.1 (mem_of_lookup hl)

theorem KeepsLast.ne_nil (h : KeepsLast pairs table) (hp : pairs ≠ []) : table ≠ [] := by
  rintro rfl
  obtain ⟨e, he⟩ := List.exists_mem_of_ne_nil _ hp
  have hn := List.lookup_eq_none_iff.1 (h.lookup e.1).symm e (List.mem_reverse.2 he)
  simp at hn

end

end PlainJson
