import PlainJson.Proofs.Document.Verdict
import PlainJson.Proofs.Grammar.Completion

/-!
The one fault that reading a text can end by, and where it comes from: the digits at a place for a
value, of which a text has at most one run that is too long.
-/
set_option autoImplicit false

namespace PlainJson.Document

open PlainJson.Grammar PlainJson.Text

/-- Reading ends by a fault exactly if digits at a place for a value are too many. They are the only
such digits, the fault tells how many there are, and digits anywhere else do not bring it about. -/
theorem read_fault_iff_overlongAt (s : String) :
    ((∃ n, read s = .error (.fault (.tooManyDigits n))) ↔ ∃ u d w, OverlongAt s.toList u d w) ∧
    (∀ u d w, OverlongAt s.toList u d w →
      (∀ u' d' w', OverlongAt s.toList u' d' w' → u' = u ∧ d' = d ∧ w' = w) ∧
      ∃ e, read s = .error e ∧ ∀ limit, e.message limit =
        "Exceeds the limit (" ++ Text.numeral maxDigits ++
          " digits) for integer string conversion: value has " ++ Text.numeral d.length ++
          " digits; use sys.set_int_max_str_digits() to increase the limit") ∧
    ∀ u d w, Elsewhere u (d ++ w) → ¬ OverlongAt s.toList u d w := by
  refine ⟨⟨fun hh => ?_, fun hh => ?_⟩, fun u d w h => ⟨fun _ _ _ => h.unique, ?_⟩,
    fun _ _ _ => Elsewhere.not_overlongAt⟩
  · obtain ⟨n, hr⟩ := hh
    obtain ⟨m, ho, -⟩ := overlong_of_read hr
    obtain ⟨u, d, w, h, -⟩ := overlong_iff.1 ho
    exact ⟨u, d, w, h⟩
  · obtain ⟨u, d, w, h⟩ := hh
    exact ⟨_, read_of_overlong (overlong_iff.2 ⟨u, d, w, h, rfl⟩)⟩
  · exact ⟨_, read_of_overlong (overlong_iff.2 ⟨u, d, w, h, rfl⟩), fun _ => rfl⟩

end PlainJson.Document
