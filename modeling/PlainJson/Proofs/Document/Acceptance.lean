import PlainJson.Document
import PlainJson.Proofs.Grammar.Places

/-!
Which texts are documents. A text is read exactly if the grammar derives it, and then the value read
is the one value that it derives.
-/
set_option autoImplicit false

namespace PlainJson.Document

open PlainJson.Grammar PlainJson.Parser PlainJson.Text

variable {s : String} {x y : Value} {w : View} {e : Fault}

theorem read_of_yields (h : value.Yields (View.ofString s 0) x w) (hw : w.Within)
    (hr : w.rest = []) : read s = .ok x := by
  simp only [Yields] at h
  simp [read, runOn, h, finish, View.length_eq hw, hr]

theorem read_of_yields_more (h : value.Yields (View.ofString s 0) x w) (hw : w.Within)
    (hr : w.rest ≠ []) : read s = .error (.rejected ⟨.trailing, w.rest⟩) := by
  obtain ⟨c, t, ht⟩ := List.exists_cons_of_ne_nil hr
  simp only [Yields] at h
  simp [read, runOn, h, finish, View.length_eq hw, ht]

theorem read_of_fails (h : value.Fails (View.ofString s 0) w) :
    read s = .error (.rejected ⟨.unmatched, w.rest⟩) := by
  simp only [Fails] at h
  simp [read, runOn, h, finish]

theorem read_of_faults (h : value.Faults (View.ofString s 0) e) :
    read s = .error (.fault e) := by
  simp only [Faults] at h
  simp [read, runOn, h]

theorem read_of_derives (h : Derives s.toList x) : read s = .ok x := by
  have hr : (View.ofString s 0).rest = s.toList ++ [] := by simp [View.rest_ofString]
  obtain ⟨w, hs, hn⟩ := View.exists_spans (View.within_ofString s) hr
  exact read_of_yields (value_completes h hs (hn ▸ ends_nil _)) hs.within_next hn

/-- What reading a text can come to: it is a document, or a part at its front is one that nothing
behind it lengthens, or no part is, or digits at a place for a value are too many. -/
inductive Verdict (s : List Char) : Except ReadError Value → Prop where
  | whole {x : Value} : Derives s x → Verdict s (.ok x)
  | part {cs t : List Char} {x : Value} : s = cs ++ t → Derives cs x → Ends cs t → t ≠ [] →
      Verdict s (.error (.rejected ⟨.trailing, t⟩))
  | none {l t : List Char} : s = l ++ t → AllOf isBlank l → ClearOf isBlank t →
      (∀ cs u x, s = cs ++ u → Derives cs x → ¬ Ends cs u) →
        Verdict s (.error (.rejected ⟨.unmatched, t⟩))
  | overlong {n : Nat} : Overlong s n → Verdict s (.error (.fault (.tooManyDigits n)))

theorem verdict_read (s : String) : Verdict s.toList (read s) := by
  have hv := View.within_ofString s
  have hs := View.rest_ofString s
  rcases value.ends (View.ofString s 0) with ⟨x, w, hy⟩ | ⟨w, hf⟩ | ⟨e, hf⟩
  · obtain ⟨cs, hc, hd, he⟩ := (value_yields_iff hv).1 hy
    rw [hc.ahead] at hs
    by_cases hr : w.rest = []
    · rw [read_of_yields hy hc.within_next hr, ← hs, hr, List.append_nil]
      exact .whole hd
    · rw [read_of_yields_more hy hc.within_next hr]
      exact .part hs.symm hd he hr
  · obtain ⟨l, hl, hb, hc⟩ := value_fails hv hf
    rw [read_of_fails hf]
    refine .none (hs.symm.trans hl.ahead) hb hc fun cs u x hu hd he => ?_
    obtain ⟨y, hcs, rfl⟩ := View.exists_spans hv (hs.trans hu)
    exact (value_completes hd hcs he).not_fails hf
  · obtain ⟨n, ho, rfl⟩ := (value_faults_iff hv).1 hf
    rw [hs] at ho
    rw [read_of_faults hf]
    exact .overlong ho

theorem derives_of_read (h : read s = .ok x) : Derives s.toList x := by
  have hv := verdict_read s
  rw [h] at hv
  cases hv with
  | whole hd => exact hd

theorem derives_unique {cs : List Char} (hx : Derives cs x) (hy : Derives cs y) : x = y := by
  have hr : ∀ z, Derives cs z → read (String.ofList cs) = .ok z :=
    fun z hz => read_of_derives (by simpa using hz)
  exact Except.ok.inj ((hr x hx).symm.trans (hr y hy))

/-- The documents are the texts that the grammar derives, and none of them has two values. -/
theorem read_ok_iff_derives (s : String) :
    (∀ x, read s = .ok x ↔ Derives s.toList x) ∧
      ∀ x y, Derives s.toList x → Derives s.toList y → x = y :=
  ⟨fun _ => ⟨derives_of_read, read_of_derives⟩, fun _ _ => derives_unique⟩

end PlainJson.Document
