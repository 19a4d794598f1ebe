import PlainJson.Proofs.Document.Acceptance

/-!
More text behind a text. Where reading stopped before the end, what it looked at last is still there
in a longer text, so it stops at the same place. Nothing that comes later makes a document of a text
that was refused for what is left behind.
-/
set_option autoImplicit false

namespace PlainJson.Document

open PlainJson.Grammar PlainJson.Parser PlainJson.Text

variable {s : String} {x : Value} {w : View}

theorem rest_of_append {cs t : List Char} (z : String) (h : s.toList = cs ++ t) :
    (View.ofString (s ++ z) 0).rest = cs ++ (t ++ z.toList) := by
  rw [View.rest_ofString, String.toList_append, h, List.append_assoc]

/-- A value that leaves something behind leaves as much and the longer text's rest. -/
theorem value_yields_append (z : String) (h : value.Yields (View.ofString s 0) x w)
    (hn : w.rest ≠ []) :
    value.Yields (View.ofString (s ++ z) 0) x (View.ofString (s ++ z) w.pos) ∧
      (View.ofString (s ++ z) w.pos).Within ∧
      (View.ofString (s ++ z) w.pos).rest = w.rest ++ z.toList := by
  obtain ⟨cs, hs, hd, he⟩ := (value_yields_iff (View.within_ofString s)).1 h
  have hr := rest_of_append z ((View.rest_ofString s).symm.trans hs.ahead)
  obtain ⟨u, hu, hur⟩ := View.exists_spans (View.within_ofString (s ++ z)) hr
  have hpos : u = View.ofString (s ++ z) w.pos := by
    rw [hu.next, hs.next]
    rfl
  rw [← hpos]
  refine ⟨value_completes hd hu ?_, hu.within_next, hur⟩
  rw [hur]
  exact (ends_append_iff hn).2 he

theorem yields_of_trailing {r : List Char} (h : read s = .error (.rejected ⟨.trailing, r⟩)) :
    ∃ x w, value.Yields (View.ofString s 0) x w ∧ w.rest = r ∧ r ≠ [] := by
  have hv := verdict_read s
  rw [h] at hv
  cases hv with
  | @part cs t x hs hd he hn =>
    have hr : (View.ofString s 0).rest = cs ++ r := (View.rest_ofString s).trans hs
    obtain ⟨w, hw, hwr⟩ := View.exists_spans (View.within_ofString s) hr
    exact ⟨x, w, value_completes hd hw (hwr ▸ he), hwr, hn⟩

/-- A value that leaves something behind is found at the same place in any longer text, and a text
refused for what is left behind stays so, with more left behind. -/
theorem read_append_trailing (s z : String) :
    (∀ w x, (value.runOn s).ending = .ok (.success w x) → w.rest ≠ [] →
      (value.runOn (s ++ z)).ending = .ok (.success (View.ofString (s ++ z) w.pos) x)) ∧
    ∀ r, read s = .error (.rejected ⟨.trailing, r⟩) →
      read (s ++ z) = .error (.rejected ⟨.trailing, r ++ z.toList⟩) := by
  refine ⟨fun w x hy hn => (value_yields_append z hy hn).1, fun r hr => ?_⟩
  obtain ⟨x, w, hy, rfl, hn⟩ := yields_of_trailing hr
  obtain ⟨hz, hw, hwr⟩ := value_yields_append z hy hn
  rw [read_of_yields_more hz hw (by simp [hwr, hn]), hwr]

/-- A second value behind the first, however it goes on. -/
theorem read_append_trailing_array :
    (value.runOn "[1] [").ending = .ok (.success (View.ofString "[1] [" 4) (.list [.int 1])) ∧
      (View.ofString "[1] [" 4).rest ≠ [] ∧
      (value.runOn ("[1] [" ++ "2]")).ending =
        .ok (.success (View.ofString ("[1] [" ++ "2]") 4) (.list [.int 1])) ∧
      read "[1] [" = .error (.rejected ⟨.trailing, ['[']⟩) ∧
      read ("[1] [" ++ "2]") = .error (.rejected ⟨.trailing, ['[', '2', ']']⟩) := by
  have hy : (value.runOn "[1] [").ending =
      .ok (.success (View.ofString "[1] [" 4) (.list [.int 1])) := rfl
  have hn : (View.ofString "[1] [" 4).rest ≠ [] := by decide
  have hr : read "[1] [" = .error (.rejected ⟨.trailing, ['[']⟩) := rfl
  have h := read_append_trailing "[1] [" "2]"
  exact ⟨hy, hn, h.1 _ _ hy hn, hr, h.2 _ hr⟩

end PlainJson.Document
