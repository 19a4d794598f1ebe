import PlainJson.Proofs.Grammar.Unfolding
import PlainJson.Proofs.Parser.Skipping

/-!
White space is absorbed once. A value has the white space around it in its own rule, so more of the
same around it changes no run, and a value may as well be read from behind the white space before it.
-/
set_option autoImplicit false

namespace PlainJson.Grammar

open PlainJson.Parser PlainJson.Text

variable {v : View}

theorem rules_staysWithin :
    (either (Order.standard.kinds.map fun k _ => rule .standard value k)).StaysWithin :=
  (rules_advance .standard (valueIn_advances .standard).forward).forward.staysWithin

theorem wrapBlank_value (hv : v.Within) : (wrapBlank value).run v = value.run v := by
  have hS : View.Onward fun _ => True := fun _ _ _ _ _ => trivial
  have hbody : AgreeOn (fun _ => True) value (body .standard value) := fun _ hu _ => value_run hu
  calc (wrapBlank value).run v
      = (wrapBlank (body .standard value)).run v :=
        hbody.wrapBlank hS (valueIn_advances .standard).forward v hv trivial
    _ = (body .standard value).run v := wrapBlank_twice rules_staysWithin hv
    _ = value.run v := (value_run hv).symm

theorem value_skip (hv : v.Within) : value.run (v.skip isBlank) = value.run v := by
  rw [value_run hv, value_run (View.within_skip hv isBlank)]
  exact wrapBlank_skip rules_staysWithin hv

/-- White space around a parser, once or twice, makes for the same run: the same value and what
remains, the same place of failure, or the same fault. No more of it is ahead of what remains. A
value needs none around it, and none in front. -/
theorem wrapBlank_absorbs {α : Type} (p : Parser α) (hp : p.StaysWithin) (v : View)
    (hv : v.Within) :
    (wrapBlank (wrapBlank p)).run v = (wrapBlank p).run v ∧
    (∀ a w, (wrapBlank p).Yields v a w → ClearOf isBlank w.rest) ∧
    (wrapBlank value).run v = value.run v ∧
    value.run (v.skip isBlank) = value.run v :=
  ⟨wrapBlank_twice hp hv, fun _ _ hy => (wrapBlank_yields_clear hp hv hy).2, wrapBlank_value hv,
    value_skip hv⟩

/-- Goes back to the beginning of the text. -/
def rewind : Parser Unit := ⟨.named "rewind", fun v => .done (.success ⟨v.text, 0⟩ ())⟩

/-- The parser inside may leave white space ahead, even in front of where it began. -/
theorem wrapBlank_absorbs_rewind :
    rewind.StaysWithin ∧ (View.ofString "  [ 1 ]" 4).Within ∧
      (wrapBlank (wrapBlank rewind)).run (View.ofString "  [ 1 ]" 4) =
        .done (.success (View.ofString "  [ 1 ]" 2) ()) ∧
      (wrapBlank value).run (View.ofString "  [ 1 ]" 0) =
        .done (.success (View.ofString "  [ 1 ]" 7) (.list [.int 1])) := by
  have hp : rewind.StaysWithin := by
    intro v a w _ hy
    obtain rfl : View.mk v.text 0 = w := (Outcome.success.inj (Except.ok.inj hy)).1
    exact ⟨Int.le_refl 0, Int.natCast_nonneg _⟩
  have hv : (View.ofString "  [ 1 ]" 4).Within := ⟨by decide, by decide⟩
  have hw : (View.ofString "  [ 1 ]" 0).Within := ⟨by decide, by decide⟩
  exact ⟨hp, hv, (wrapBlank_absorbs rewind hp _ hv).1.trans rfl,
    (wrapBlank_absorbs rewind hp _ hw).2.2.1.trans rfl⟩

end PlainJson.Grammar
