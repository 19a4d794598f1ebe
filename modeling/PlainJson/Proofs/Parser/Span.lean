import PlainJson.View

/-!
What lies between two views of one text. A view within its text is known by the characters ahead of
it, and going over some of them leads to just one other view.
-/
set_option autoImplicit false

namespace PlainJson.View

/-- The characters `cs` are the first ahead of `v`, and `w` is the view right after them. -/
structure Spans (v : View) (cs : List Char) (w : View) : Prop where
  within : v.Within
  next : w = v.advance cs.length
  ahead : v.rest = cs ++ w.rest

variable {v w u : View} {cs ds : List Char}

theorem within_ofString (s : String) : (ofString s 0).Within := by
  simp [Within, ofString]

theorem rest_ofString (s : String) : (ofString s 0).rest = s.toList := by
  simp [rest, start, ofString]

theorem exists_view (cs : List Char) : ∃ v : View, v.Within ∧ v.rest = cs := by
  refine ⟨_, within_ofString (String.ofList cs), ?_⟩
  rw [rest_ofString, String.toList_ofList]

theorem length_rest (h : v.Within) : v.rest.length = v.room := by
  have h₁ := h.1
  simp only [rest, room, List.length_drop, start_of_within h, Array.length_toList]
  omega

theorem rest_advance (h : v.Within) (n : Nat) : (v.advance n).rest = v.rest.drop n := by
  have h₁ := h.1
  have hp : 0 ≤ v.pos + n := by omega
  simp only [rest, start, advance_pos, advance_text, h₁, hp, if_true, List.drop_drop]
  congr 1
  omega

theorem within_advance (h : v.Within) {n : Nat} (hn : n ≤ v.rest.length) :
    (v.advance n).Within := by
  have h₁ := h.1
  have h₂ := h.2
  rw [length_rest h] at hn
  simp only [room] at hn
  simp only [Within, advance_pos, advance_text]; omega

theorem spans_of_rest {t : List Char} (h : v.Within) (hr : v.rest = cs ++ t) :
    v.Spans cs (v.advance cs.length) where
  within := h
  next := rfl
  ahead := by rw [rest_advance h, hr]; simp

theorem exists_spans {t : List Char} (h : v.Within) (hr : v.rest = cs ++ t) :
    ∃ w, v.Spans cs w ∧ w.rest = t := by
  have hs := spans_of_rest h hr
  rw [hs.ahead] at hr
  exact ⟨_, hs, List.append_cancel_left hr⟩

theorem Spans.within_next (h : v.Spans cs w) : w.Within := by
  rw [h.next]
  apply within_advance h.within
  rw [h.ahead]; simp

theorem Spans.room_eq (h : v.Spans cs w) : v.room = cs.length + w.room := by
  rw [← length_rest h.within, ← length_rest h.within_next, h.ahead, List.length_append]

theorem Spans.room_lt (h : v.Spans cs w) (hn : cs ≠ []) : w.room < v.room := by
  have hr := h.room_eq
  have hc := List.length_pos_iff.2 hn
  omega

theorem Spans.refl (h : v.Within) : v.Spans [] v where
  within := h
  next := by simp [advance]
  ahead := rfl

theorem Spans.trans (h₁ : v.Spans cs u) (h₂ : u.Spans ds w) : v.Spans (cs ++ ds) w where
  within := h₁.within
  next := by
    rw [h₂.next, h₁.next]
    simp [advance, Int.add_assoc]
  ahead := by rw [h₁.ahead, h₂.ahead, List.append_assoc]

theorem Spans.split (h : v.Spans (cs ++ ds) w) : ∃ u, v.Spans cs u ∧ u.Spans ds w := by
  have hr : v.rest = cs ++ (ds ++ w.rest) := by rw [h.ahead, List.append_assoc]
  have h₁ := spans_of_rest h.within hr
  refine ⟨_, h₁, h₁.within_next, ?_, ?_⟩
  · rw [h.next]
    simp [advance, Int.add_assoc]
  · rw [h₁.ahead] at hr
    exact List.append_cancel_left hr

theorem spans_nil : v.Spans [] w ↔ v.Within ∧ w = v := by
  refine ⟨fun h => ?_, fun hh => ?_⟩
  · exact ⟨h.within, by simpa [advance] using h.next⟩
  · obtain ⟨h, rfl⟩ := hh
    exact Spans.refl h

theorem Spans.unique (h₁ : v.Spans cs w) (h₂ : v.Spans ds w) : cs = ds := by
  have h := h₁.ahead
  rw [h₂.ahead] at h
  exact (List.append_cancel_right h).symm

end PlainJson.View
