import PlainJson.Proofs.Parser.Repetition

/-!
The parsers that look at the characters themselves. On a view within its text, what they yield is
told by the characters gone over, and none of them ends a run by a fault.
-/
set_option autoImplicit false

namespace PlainJson.Parser

open PlainJson.Text

variable {v w u : View} {s : String} {c : Char} {cs : List Char} {f : Char → Bool} {e : Fault}

theorem literal_yields (h : v.Within) {a : Unit} :
    (literal s).Yields v a w ↔ v.Spans s.toList w := by
  simp only [Yields, literal, View.startsWith_eq h.2]
  refine ⟨fun hy => ?_, fun hs => ?_⟩
  · split at hy
    · rename_i hp
      obtain ⟨t, ht⟩ := List.isPrefixOf_iff_prefix.1 hp
      simp only [Run.ending_done, Except.ok.injEq, Outcome.success.injEq] at hy
      rw [← hy.1]
      exact View.spans_of_rest h ht.symm
    · simp at hy
  · have hp : s.toList.isPrefixOf v.rest = true := by
      rw [List.isPrefixOf_iff_prefix, hs.ahead]
      exact List.prefix_append _ _
    simp [hp, hs.next]

theorem literal_fails (h : v.Within) :
    (literal s).Fails v w ↔ w = v ∧ ¬ s.toList <+: v.rest := by
  simp only [Fails, literal, View.startsWith_eq h.2, ← List.isPrefixOf_iff_prefix]
  by_cases hp : s.toList.isPrefixOf v.rest = true
  · simp [hp]
  · simp [hp, eq_comm]

theorem literal_not_faults : ¬ (literal s).Faults v e := by
  simp only [Faults, literal]
  split <;> simp

theorem literal_forward (s : String) : (literal s).Forward :=
  fun _ _ _ h hy => ⟨_, (literal_yields h).1 hy⟩

theorem literal_advances (hs : s.toList ≠ []) : (literal s).Advances :=
  fun _ _ _ h hy => ⟨_, hs, (literal_yields h).1 hy⟩

theorem anyChar_run (h : v.Within) :
    anyChar.run v = match v.rest with
      | [] => .done (.failure v)
      | c :: _ => .done (.success (v.advance 1) c) := by
  simp only [anyChar, View.length_eq h]
  cases hr : v.rest with
  | nil => rfl
  | cons c t => simp [View.peek_eq h c t hr]

theorem anyChar_yields (h : v.Within) : anyChar.Yields v c w ↔ v.Spans [c] w := by
  simp only [Yields, anyChar_run h]
  cases hr : v.rest with
  | nil =>
    simp only [Run.ending_done, Except.ok.injEq, reduceCtorEq, false_iff]
    intro hs
    simpa [hr] using hs.ahead
  | cons d t =>
    simp only [Run.ending_done, Except.ok.injEq, Outcome.success.injEq]
    refine ⟨fun hh => ?_, fun hs => ?_⟩
    · obtain ⟨rfl, rfl⟩ := hh
      exact @View.spans_of_rest v [d] t h hr
    · have ha := hs.ahead
      simp only [hr, List.cons_append, List.cons.injEq] at ha
      exact ⟨hs.next.symm, ha.1⟩

theorem anyChar_fails (h : v.Within) : anyChar.Fails v w ↔ w = v ∧ v.rest = [] := by
  simp only [Fails, anyChar_run h]
  cases hr : v.rest with
  | nil => simp [eq_comm]
  | cons c t => simp

theorem anyChar_not_faults (h : v.Within) : ¬ anyChar.Faults v e := by
  simp only [Faults, anyChar_run h]
  cases v.rest <;> simp

theorem anyChar_advances : anyChar.Advances :=
  fun _ c _ h hy => ⟨[c], by simp, (anyChar_yields h).1 hy⟩

theorem oneOf_yields (h : v.Within) :
    (anyChar.filter f).Yields v c w ↔ v.Spans [c] w ∧ f c = true := by
  rw [filter_yields, anyChar_yields h]

theorem oneOf_fails (h : v.Within) :
    (anyChar.filter f).Fails v w ↔ w = v ∧ ClearOf f v.rest := by
  simp only [filter_fails, anyChar_fails h, anyChar_yields h]
  cases hr : v.rest with
  | nil =>
    simp only [and_true, clearOf_nil]
    exact ⟨fun h => h.elim id And.left, .inl⟩
  | cons c t =>
    simp only [reduceCtorEq, and_false, false_or, clearOf_cons]
    refine and_congr_right fun _ => ⟨?_, fun hf => ⟨c, _, View.spans_of_rest h hr, hf⟩⟩
    intro hh
    obtain ⟨d, x, hs, hf⟩ := hh
    have ha := hs.ahead
    simp only [hr, List.cons_append, List.cons.injEq] at ha
    rwa [ha.1]

theorem oneOf_not_faults (h : v.Within) : ¬ (anyChar.filter f).Faults v e := by
  rw [filter_faults]
  exact anyChar_not_faults h

theorem repeats_oneOf (h : v.Within) :
    Repeats (anyChar.filter f) v cs w ↔ v.Spans cs w ∧ AllOf f cs := by
  induction cs generalizing v with
  | nil => simp [repeats_nil, View.spans_nil, h]
  | cons c cs ih =>
    rw [repeats_cons]
    refine ⟨fun hh => ?_, fun hh => ?_⟩
    · obtain ⟨u, hy, hr⟩ := hh
      obtain ⟨hs, hc⟩ := (oneOf_yields h).1 hy
      obtain ⟨ht, ha⟩ := (ih hs.within_next).1 hr
      exact ⟨hs.trans ht, allOf_cons.2 ⟨hc, ha⟩⟩
    · obtain ⟨hs, ha⟩ := hh
      obtain ⟨hc, ha⟩ := allOf_cons.1 ha
      obtain ⟨u, hu, hw⟩ := @View.Spans.split v w [c] _ hs
      exact ⟨u, (oneOf_yields h).2 ⟨hu, hc⟩, (ih hu.within_next).2 ⟨hw, ha⟩⟩

/-- The longest stretch of characters of a class, be it empty. -/
theorem stretch_yields (h : v.Within) :
    (many (anyChar.filter f)).Yields v cs w ↔
      v.Spans cs w ∧ AllOf f cs ∧ ClearOf f w.rest := by
  rw [many_yields (anyChar_advances.filter f) h, repeats_oneOf h, and_assoc]
  refine and_congr_right fun hs => and_congr_right fun _ => ?_
  simp [oneOf_fails hs.within_next]

theorem stretch_not_faults (h : v.Within) : ¬ (many (anyChar.filter f)).Faults v e := by
  rw [many_faults (anyChar_advances.filter f) h]
  intro hh
  obtain ⟨cs, u, hr, hf⟩ := hh
  exact oneOf_not_faults ((repeats_oneOf h).1 hr).1.within_next hf

theorem stretch_forward : (many (anyChar.filter f)).Forward :=
  many_forward (anyChar_advances.filter f).forward

theorem stretch1_yields (h : v.Within) :
    (many1 (anyChar.filter f)).Yields v cs w ↔
      cs ≠ [] ∧ v.Spans cs w ∧ AllOf f cs ∧ ClearOf f w.rest := by
  simp only [many1, map_yields, pair_yields]
  refine ⟨fun hh => ?_, fun hh => ?_⟩
  · obtain ⟨⟨c, ds⟩, ⟨u, hc, hd⟩, rfl⟩ := hh
    obtain ⟨hs, hf⟩ := (oneOf_yields h).1 hc
    obtain ⟨ht, ha, hw⟩ := (stretch_yields hs.within_next).1 hd
    exact ⟨by simp [cons], hs.trans ht, allOf_cons.2 ⟨hf, ha⟩, hw⟩
  · obtain ⟨hne, hs, ha, hw⟩ := hh
    obtain ⟨c, ds, rfl⟩ := List.exists_cons_of_ne_nil hne
    obtain ⟨hc, ha⟩ := allOf_cons.1 ha
    obtain ⟨u, hu, ht⟩ := @View.Spans.split v w [c] _ hs
    exact ⟨(c, ds), ⟨u, (oneOf_yields h).2 ⟨hu, hc⟩,
      (stretch_yields hu.within_next).2 ⟨ht, ha, hw⟩⟩, rfl⟩

/-- A stretch that must not be empty fails where it would begin. -/
theorem stretch1_fails (h : v.Within) :
    (many1 (anyChar.filter f)).Fails v w ↔ w = v ∧ ClearOf f v.rest := by
  simp [many1, map_fails, pair_fails, many_not_fails, oneOf_fails h]

theorem stretch1_not_faults (h : v.Within) : ¬ (many1 (anyChar.filter f)).Faults v e := by
  rw [many1, map_faults, pair_faults]
  intro hh
  rcases hh with hf | ⟨u, c, hc, hf⟩
  · exact oneOf_not_faults h hf
  · exact stretch_not_faults ((oneOf_yields h).1 hc).1.within_next hf

end PlainJson.Parser
