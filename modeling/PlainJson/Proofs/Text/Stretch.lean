import PlainJson.Text.Blank

/-!
Stretches of characters of one class. A stretch that the next character does not continue is the
longest one, so a text has just one such stretch at its front.
-/
set_option autoImplicit false

namespace PlainJson.Text

/-- The text does not begin with a character of the class `f`. -/
def ClearOf (f : Char → Bool) (t : List Char) : Prop := ∀ c ∈ t.head?, f c = false

/-- All of the text belongs to the class `f`. -/
def AllOf (f : Char → Bool) (cs : List Char) : Prop := ∀ c ∈ cs, f c = true

/-- Of the parts at the front of `t` that belong to the class `f`, none is longer than `cs`. -/
structure LongestFront (f : Char → Bool) (t cs : List Char) : Prop where
  front : cs <+: t
  all : AllOf f cs
  longest : ∀ ds, ds <+: t → AllOf f ds → ds.length ≤ cs.length

variable {f : Char → Bool}

@[simp] theorem clearOf_nil : ClearOf f [] := by simp [ClearOf]

@[simp] theorem clearOf_cons {c : Char} {t : List Char} : ClearOf f (c :: t) ↔ f c = false := by
  simp [ClearOf]

/-- Only the next character counts. -/
theorem clearOf_append {t u : List Char} (hn : t ≠ []) : ClearOf f (t ++ u) ↔ ClearOf f t := by
  obtain ⟨c, t, rfl⟩ := List.exists_cons_of_ne_nil hn
  rw [List.cons_append, clearOf_cons, clearOf_cons]

@[simp] theorem allOf_nil : AllOf f [] := by simp [AllOf]

@[simp] theorem allOf_cons {c : Char} {cs : List Char} :
    AllOf f (c :: cs) ↔ f c = true ∧ AllOf f cs := by
  simp [AllOf]

@[simp] theorem allOf_append {cs ds : List Char} :
    AllOf f (cs ++ ds) ↔ AllOf f cs ∧ AllOf f ds := by
  simp only [AllOf, List.mem_append]
  exact ⟨fun h => ⟨fun c hc => h c (.inl hc), fun c hc => h c (.inr hc)⟩,
    fun h c hc => hc.elim (h.1 c) (h.2 c)⟩

theorem allOf_bne {d : Char} {cs : List Char} : AllOf (fun c => c != d) cs ↔ d ∉ cs := by
  simp only [AllOf, bne_iff_ne]
  exact ⟨fun h hd => h d hd rfl, fun h c hc he => h (he ▸ hc)⟩

theorem takeWhile_stretch {cs t : List Char} (hc : AllOf f cs) (ht : ClearOf f t) :
    (cs ++ t).takeWhile f = cs := by
  rw [List.takeWhile_append_of_pos hc]
  cases t with
  | nil => simp
  | cons c t => simp [clearOf_cons.1 ht]

theorem dropWhile_stretch {cs t : List Char} (hc : AllOf f cs) (ht : ClearOf f t) :
    (cs ++ t).dropWhile f = t := by
  rw [List.dropWhile_append_of_pos hc]
  cases t with
  | nil => rfl
  | cons c t => simp [clearOf_cons.1 ht]

theorem stretch_unique {cs ds t u : List Char} (hc : AllOf f cs) (ht : ClearOf f t)
    (hd : AllOf f ds) (hu : ClearOf f u) (h : cs ++ t = ds ++ u) : cs = ds ∧ t = u := by
  have hl := congrArg (List.takeWhile f) h
  have hr := congrArg (List.dropWhile f) h
  rw [takeWhile_stretch hc ht, takeWhile_stretch hd hu] at hl
  rw [dropWhile_stretch hc ht, dropWhile_stretch hd hu] at hr
  exact ⟨hl, hr⟩

theorem exists_stretch (f : Char → Bool) (t : List Char) :
    ∃ cs u, t = cs ++ u ∧ AllOf f cs ∧ ClearOf f u := by
  induction t with
  | nil => exact ⟨[], [], rfl, allOf_nil, clearOf_nil⟩
  | cons c t ih =>
    by_cases hc : f c = true
    · obtain ⟨cs, u, ht, ha, hu⟩ := ih
      exact ⟨c :: cs, u, by rw [ht]; rfl, allOf_cons.2 ⟨hc, ha⟩, hu⟩
    · exact ⟨[], c :: t, rfl, allOf_nil, clearOf_cons.2 (by simpa using hc)⟩

theorem clearOf_dropWhile (f : Char → Bool) (t : List Char) : ClearOf f (t.dropWhile f) := by
  obtain ⟨cs, u, rfl, hc, hu⟩ := exists_stretch f t
  rwa [dropWhile_stretch hc hu]

theorem clearOf_of_takeWhile {t : List Char} (h : t.takeWhile f = []) : ClearOf f t := by
  have ht : t.takeWhile f ++ t.dropWhile f = t := List.takeWhile_append_dropWhile
  rw [h, List.nil_append] at ht
  exact ht ▸ clearOf_dropWhile f t

theorem longestFront_takeWhile (f : Char → Bool) (t : List Char) :
    LongestFront f t (t.takeWhile f) where
  front := List.takeWhile_prefix f
  all := List.all_eq_true.1 List.all_takeWhile
  longest := by
    rintro ds ⟨u, rfl⟩ hd
    rw [List.takeWhile_append_of_pos hd, List.length_append]
    exact Nat.le_add_right _ _

end PlainJson.Text
