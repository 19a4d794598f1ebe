import PlainJson.Proofs.Parser.Around
import PlainJson.Proofs.Parser.Silence

/-!
Going over the characters of a class. To repeat a parser of such characters is to go as far as they
reach, and a run of it does nothing besides. Behind them none is left to go over, so white space that
is skipped around a parser twice is skipped as if once.
-/
set_option autoImplicit false

namespace PlainJson

open PlainJson.Text

namespace View

variable {v : View} {f : Char → Bool}

/-- The view right behind the characters of the class `f` that come next. -/
def skip (f : Char → Bool) (v : View) : View := v.advance (v.rest.takeWhile f).length

theorem spans_skip (hv : v.Within) (f : Char → Bool) :
    v.Spans (v.rest.takeWhile f) (v.skip f) :=
  spans_of_rest hv List.takeWhile_append_dropWhile.symm

theorem within_skip (hv : v.Within) (f : Char → Bool) : (v.skip f).Within :=
  (spans_skip hv f).within_next

theorem rest_skip (hv : v.Within) (f : Char → Bool) : (v.skip f).rest = v.rest.dropWhile f := by
  have ha := (spans_skip hv f).ahead
  exact List.append_cancel_left (ha.symm.trans List.takeWhile_append_dropWhile.symm)

theorem clearOf_skip (hv : v.Within) (f : Char → Bool) : ClearOf f (v.skip f).rest := by
  rw [rest_skip hv]
  exact clearOf_dropWhile f v.rest

theorem skip_of_clearOf (h : ClearOf f v.rest) : v.skip f = v := by
  have ht : v.rest.takeWhile f = [] := takeWhile_stretch allOf_nil h
  simp [skip, ht, advance]

theorem skip_skip (hv : v.Within) (f : Char → Bool) : (v.skip f).skip f = v.skip f :=
  skip_of_clearOf (clearOf_skip hv f)

end View

namespace Parser

variable {α : Type} {p : Parser α} {v w : View} {a : α}

theorem stretch_yields_skip (hv : v.Within) (f : Char → Bool) :
    (many (anyChar.filter f)).Yields v (v.rest.takeWhile f) (v.skip f) := by
  have ha : AllOf f (v.rest.takeWhile f) := (longestFront_takeWhile f v.rest).all
  exact (stretch_yields hv).2 ⟨View.spans_skip hv f, ha, View.clearOf_skip hv f⟩

theorem stretch_run (hv : v.Within) (f : Char → Bool) :
    (many (anyChar.filter f)).run v = .done (.success (v.skip f) (v.rest.takeWhile f)) :=
  (silent_stretch f).run_of_yields (stretch_yields_skip hv f)

/-- To ask for one character at least makes a difference only where there is none. -/
theorem stretch1_run (hv : v.Within) (f : Char → Bool) :
    (many1 (anyChar.filter f)).run v =
      if v.rest.takeWhile f = [] then .done (.failure v) else (many (anyChar.filter f)).run v := by
  by_cases ht : v.rest.takeWhile f = []
  · rw [if_pos ht]
    exact (silent_stretch1 f).run_of_fails ((stretch1_fails hv).2 ⟨rfl, clearOf_of_takeWhile ht⟩)
  · rw [if_neg ht, stretch_run hv f]
    have hs := (stretch_yields hv).1 (stretch_yields_skip hv f)
    exact (silent_stretch1 f).run_of_yields ((stretch1_yields hv).2 ⟨ht, hs⟩)

/-- What the parser leaves of a view within its text is within its text, be it ahead or not. -/
def StaysWithin (p : Parser α) : Prop := ∀ v a w, v.Within → p.Yields v a w → w.Within

theorem Forward.staysWithin (hp : p.Forward) : p.StaysWithin := by
  intro v a w hv hy
  obtain ⟨_, hs⟩ := hp v a w hv hy
  exact hs.within_next

/-- Goes over the characters of the class `f` behind what was yielded; a failure stays in its place. -/
def skipBehind (f : Char → Bool) : Outcome α → Outcome α
  | .success w a => .success (w.skip f) a
  | .failure w => .failure w

theorem wrapBlank_run (hp : p.StaysWithin) (hv : v.Within) :
    (wrapBlank p).run v = (p.run (v.skip isBlank)).andThen fun o => .done (skipBehind isBlank o) := by
  simp only [wrapBlank, blank, right, left, map, pair, stretch_run hv, Run.done_andThen,
    Run.andThen_assoc]
  refine Run.andThen_congr fun o ho => ?_
  cases o with
  | failure w => rfl
  | success w a =>
    have hw : w.Within := hp _ a w (View.within_skip hv isBlank) ho
    simp only [stretch_run hw, Run.done_andThen]
    rfl

theorem wrapBlank_yields_clear (hp : p.StaysWithin) (hv : v.Within)
    (h : (wrapBlank p).Yields v a w) : w.Within ∧ ClearOf isBlank w.rest := by
  rw [Yields, wrapBlank_run hp hv] at h
  obtain ⟨o, ho, he⟩ := Run.ending_andThen_ok.1 h
  cases o with
  | failure u => simp [skipBehind] at he
  | success u b =>
    have hu : u.Within := hp _ b u (View.within_skip hv isBlank) ho
    simp only [skipBehind, Run.ending_done, Except.ok.injEq, Outcome.success.injEq] at he
    rw [← he.1]
    exact ⟨View.within_skip hu isBlank, View.clearOf_skip hu isBlank⟩

theorem StaysWithin.wrapBlank (hp : p.StaysWithin) : (wrapBlank p).StaysWithin :=
  fun _ _ _ hv hy => (wrapBlank_yields_clear hp hv hy).1

/-- The parser inside is put to the same view either way, so a failure of it is the same, too. -/
theorem wrapBlank_skip (hp : p.StaysWithin) (hv : v.Within) :
    (wrapBlank p).run (v.skip isBlank) = (wrapBlank p).run v := by
  rw [wrapBlank_run hp hv, wrapBlank_run hp (View.within_skip hv isBlank), View.skip_skip hv]

theorem wrapBlank_twice (hp : p.StaysWithin) (hv : v.Within) :
    (wrapBlank (wrapBlank p)).run v = (wrapBlank p).run v := by
  rw [wrapBlank_run hp.wrapBlank hv, wrapBlank_skip hp hv]
  refine (Run.andThen_congr fun o ho => ?_).trans (Run.andThen_done _)
  cases o with
  | failure w => rfl
  | success w a =>
    have hc := (wrapBlank_yields_clear hp hv ho).2
    rw [skipBehind, View.skip_of_clearOf hc]

end Parser

end PlainJson
