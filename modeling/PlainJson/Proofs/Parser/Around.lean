import PlainJson.Proofs.Parser.Agreement
import PlainJson.Proofs.Parser.Scanning

/-!
Parsers around other parsers: white space or fixed texts before and after, and separators between.
Fixed texts and white space never end a run by a fault, so a fault comes from the parser inside.
-/
set_option autoImplicit false

namespace PlainJson.Parser

open PlainJson.Text

variable {α : Type} {p : Parser α} {v w u x : View} {a : α} {as : List α} {e : Fault}

/-- Between the two views there is white space, and no more of it is ahead of `w`. -/
def BlankTo (v w : View) : Prop := ∃ l, v.Spans l w ∧ AllOf isBlank l ∧ ClearOf isBlank w.rest

theorem BlankTo.unique (hx : BlankTo v x) (hw : BlankTo v w) : x = w := by
  obtain ⟨l, hl, hal, hcl⟩ := hx
  obtain ⟨r, hr, har, hcr⟩ := hw
  obtain ⟨rfl, -⟩ := stretch_unique hal hcl har hcr (hl.ahead.symm.trans hr.ahead)
  exact hl.next.trans hr.next.symm

theorem BlankTo.within_next (h : BlankTo v w) : w.Within := by
  obtain ⟨_, hs, -⟩ := h
  exact hs.within_next

theorem wrapBlank_yields (hp : p.Forward) (h : v.Within) :
    (wrapBlank p).Yields v a w ↔
      ∃ l x y r, v.Spans l x ∧ AllOf isBlank l ∧ ClearOf isBlank x.rest ∧ p.Yields x a y ∧
        y.Spans r w ∧ AllOf isBlank r ∧ ClearOf isBlank w.rest := by
  simp only [wrapBlank, right_yields, left_yields]
  refine ⟨fun hh => ?_, fun hh => ?_⟩
  · obtain ⟨x, l, hl, y, r, ha, hr⟩ := hh
    obtain ⟨hs, hb, hc⟩ := (stretch_yields h).1 hl
    obtain ⟨_, ht⟩ := hp x a y hs.within_next ha
    obtain ⟨hs', hb', hc'⟩ := (stretch_yields ht.within_next).1 hr
    exact ⟨l, x, y, r, hs, hb, hc, ha, hs', hb', hc'⟩
  · obtain ⟨l, x, y, r, hs, hb, hc, ha, hs', hb', hc'⟩ := hh
    exact ⟨x, l, (stretch_yields h).2 ⟨hs, hb, hc⟩, y, r, ha,
      (stretch_yields hs'.within).2 ⟨hs', hb', hc'⟩⟩

theorem wrapBlank_fails (h : v.Within) :
    (wrapBlank p).Fails v w ↔
      ∃ l x, v.Spans l x ∧ AllOf isBlank l ∧ ClearOf isBlank x.rest ∧ p.Fails x w := by
  simp only [wrapBlank, right_fails, left_fails, blank, many_not_fails, and_false, exists_false,
    or_false, false_or]
  refine ⟨fun hh => ?_, fun hh => ?_⟩
  · obtain ⟨x, l, hl, hf⟩ := hh
    obtain ⟨hs, hb, hc⟩ := (stretch_yields h).1 hl
    exact ⟨l, x, hs, hb, hc, hf⟩
  · obtain ⟨l, x, hs, hb, hc, hf⟩ := hh
    exact ⟨x, l, (stretch_yields h).2 ⟨hs, hb, hc⟩, hf⟩

theorem wrapBlank_fails_at (h : v.Within) :
    (wrapBlank p).Fails v w ↔ ∃ x, BlankTo v x ∧ p.Fails x w := by
  rw [wrapBlank_fails h]
  simp only [BlankTo]
  refine ⟨fun hh => ?_, fun hh => ?_⟩
  · obtain ⟨l, x, hs, hb, hc, hf⟩ := hh
    exact ⟨x, ⟨l, hs, hb, hc⟩, hf⟩
  · obtain ⟨x, ⟨l, hs, hb, hc⟩, hf⟩ := hh
    exact ⟨l, x, hs, hb, hc, hf⟩

theorem wrapBlank_faults (hp : p.Forward) (h : v.Within) :
    (wrapBlank p).Faults v e ↔
      ∃ l x, v.Spans l x ∧ AllOf isBlank l ∧ ClearOf isBlank x.rest ∧ p.Faults x e := by
  simp only [wrapBlank, right_faults, left_faults, blank]
  refine ⟨fun hh => ?_, fun hh => ?_⟩
  · rcases hh with hf | ⟨x, l, hl, hf⟩
    · exact (stretch_not_faults h hf).elim
    · obtain ⟨hs, hb, hc⟩ := (stretch_yields h).1 hl
      rcases hf with hf | ⟨y, a, ha, hf⟩
      · exact ⟨l, x, hs, hb, hc, hf⟩
      · obtain ⟨_, ht⟩ := hp x a y hs.within_next ha
        exact (stretch_not_faults ht.within_next hf).elim
  · obtain ⟨l, x, hs, hb, hc, hf⟩ := hh
    exact .inr ⟨x, l, (stretch_yields h).2 ⟨hs, hb, hc⟩, .inl hf⟩

theorem wrapBlank_forward (hp : p.Forward) : (wrapBlank p).Forward :=
  stretch_forward.right (hp.left stretch_forward)

theorem wrapBlank_advances (hp : p.Advances) : (wrapBlank p).Advances :=
  stretch_forward.right_advances (hp.left stretch_forward)

theorem AgreeOn.wrapBlank {S : View → Prop} {q : Parser α} (hS : View.Onward S) (hp : p.Forward)
    (h : AgreeOn S p q) : AgreeOn S (wrapBlank p) (wrapBlank q) :=
  AgreeOn.right hS stretch_forward (AgreeOn.refl _ _) (h.left hS hp (AgreeOn.refl _ _))

section
variable {before after : String}

theorem wrap_yields (hp : p.Forward) (h : v.Within) :
    (wrap before p after).Yields v a w ↔
      ∃ x y, v.Spans before.toList x ∧ p.Yields x a y ∧ y.Spans after.toList w := by
  simp only [wrap, right_yields, left_yields]
  refine ⟨fun hh => ?_, fun hh => ?_⟩
  · obtain ⟨x, _, hb, y, _, hy, ha⟩ := hh
    have hs := (literal_yields h).1 hb
    obtain ⟨_, ht⟩ := hp x a y hs.within_next hy
    exact ⟨x, y, hs, hy, (literal_yields ht.within_next).1 ha⟩
  · obtain ⟨x, y, hb, hy, ha⟩ := hh
    exact ⟨x, (), (literal_yields h).2 hb, y, (), hy, (literal_yields ha.within).2 ha⟩

theorem wrap_fails (hp : p.Forward) (h : v.Within) :
    (wrap before p after).Fails v w ↔
      (w = v ∧ ¬ before.toList <+: v.rest) ∨
        ∃ x, v.Spans before.toList x ∧
          (p.Fails x w ∨ ∃ a, p.Yields x a w ∧ ¬ after.toList <+: w.rest) := by
  simp only [wrap, right_fails, left_fails, literal_fails h]
  refine or_congr_right ⟨fun hh => ?_, fun hh => ?_⟩
  · obtain ⟨x, _, hb, hf⟩ := hh
    have hs := (literal_yields h).1 hb
    refine ⟨x, hs, hf.imp_right fun hf => ?_⟩
    obtain ⟨y, a, hy, hf⟩ := hf
    obtain ⟨_, ht⟩ := hp x a y hs.within_next hy
    obtain ⟨rfl, hn⟩ := (literal_fails ht.within_next).1 hf
    exact ⟨a, hy, hn⟩
  · obtain ⟨x, hs, hf⟩ := hh
    refine ⟨x, (), (literal_yields h).2 hs, hf.imp_right fun hf => ?_⟩
    obtain ⟨a, hy, hn⟩ := hf
    obtain ⟨_, ht⟩ := hp x a w hs.within_next hy
    exact ⟨w, a, hy, (literal_fails ht.within_next).2 ⟨rfl, hn⟩⟩

theorem wrap_faults (h : v.Within) :
    (wrap before p after).Faults v e ↔ ∃ x, v.Spans before.toList x ∧ p.Faults x e := by
  simp only [wrap, right_faults, left_faults, literal_not_faults, and_false, exists_false,
    or_false, false_or]
  refine ⟨fun hh => ?_, fun hh => ?_⟩
  · obtain ⟨x, _, hb, hf⟩ := hh
    exact ⟨x, (literal_yields h).1 hb, hf⟩
  · obtain ⟨x, hs, hf⟩ := hh
    exact ⟨x, (), (literal_yields h).2 hs, hf⟩

theorem wrap_map_fails {β : Type} {f : α → β} (hp : p.Forward) (h : v.Within) :
    (wrap before (p.map f) after).Fails v w ↔ (wrap before p after).Fails v w := by
  have hy : ∀ x, (∃ b, (p.map f).Yields x b w) ↔ ∃ a, p.Yields x a w := by
    intro x
    simp only [map_yields]
    exact exists_comm.trans (by simp)
  simp [wrap_fails (hp.map f) h, wrap_fails hp h, map_fails, hy]

theorem wrap_map_faults {β : Type} {f : α → β} (h : v.Within) :
    (wrap before (p.map f) after).Faults v e ↔ (wrap before p after).Faults v e := by
  simp [wrap_faults h, map_faults]

end

section
variable {sep : String}

/-- A separator and what must follow it. -/
def behind (sep : String) (p : Parser α) : Parser α := (literal sep).right p

theorem behind_yields (h : v.Within) :
    (behind sep p).Yields v a w ↔ ∃ x, v.Spans sep.toList x ∧ p.Yields x a w := by
  simp only [behind, right_yields]
  refine ⟨fun hh => ?_, fun hh => ?_⟩
  · obtain ⟨x, _, hs, hy⟩ := hh
    exact ⟨x, (literal_yields h).1 hs, hy⟩
  · obtain ⟨x, hs, hy⟩ := hh
    exact ⟨x, (), (literal_yields h).2 hs, hy⟩

theorem behind_fails (h : v.Within) :
    (behind sep p).Fails v w ↔
      (w = v ∧ ¬ sep.toList <+: v.rest) ∨ ∃ x, v.Spans sep.toList x ∧ p.Fails x w := by
  simp only [behind, right_fails, literal_fails h]
  refine or_congr_right ⟨fun hh => ?_, fun hh => ?_⟩
  · obtain ⟨x, _, hs, hf⟩ := hh
    exact ⟨x, (literal_yields h).1 hs, hf⟩
  · obtain ⟨x, hs, hf⟩ := hh
    exact ⟨x, (), (literal_yields h).2 hs, hf⟩

theorem behind_faults (h : v.Within) :
    (behind sep p).Faults v e ↔ ∃ x, v.Spans sep.toList x ∧ p.Faults x e := by
  simp only [behind, right_faults, literal_not_faults, false_or]
  refine ⟨fun hh => ?_, fun hh => ?_⟩
  · obtain ⟨x, _, hs, hf⟩ := hh
    exact ⟨x, (literal_yields h).1 hs, hf⟩
  · obtain ⟨x, hs, hf⟩ := hh
    exact ⟨x, (), (literal_yields h).2 hs, hf⟩

theorem behind_advances (hp : p.Advances) : (behind sep p).Advances :=
  (literal_forward sep).right_advances hp

theorem separateBy_yields_of_behind (hp : p.Forward) (hb : (behind sep p).Advances) (h : v.Within) :
    (separateBy p sep).Yields v as w ↔
      ∃ a bs x, as = a :: bs ∧ p.Yields v a x ∧ Repeats (behind sep p) x bs w ∧
        ∃ y, (behind sep p).Fails w y := by
  simp only [separateBy, map_yields, pair_yields]
  refine ⟨fun hh => ?_, fun hh => ?_⟩
  · obtain ⟨⟨a, bs⟩, ⟨x, hy, hm⟩, rfl⟩ := hh
    obtain ⟨_, hs⟩ := hp v a x h hy
    obtain ⟨hr, hf⟩ := (many_yields hb hs.within_next).1 hm
    exact ⟨a, bs, x, rfl, hy, hr, hf⟩
  · obtain ⟨a, bs, x, rfl, hy, hr, hf⟩ := hh
    obtain ⟨_, hs⟩ := hp v a x h hy
    have hm := (many_yields hb hs.within_next).2 ⟨hr, hf⟩
    exact ⟨(a, bs), ⟨x, hy, hm⟩, rfl⟩

theorem separateBy_yields (hp : p.Advances) (h : v.Within) :
    (separateBy p sep).Yields v as w ↔
      ∃ a bs x, as = a :: bs ∧ p.Yields v a x ∧ Repeats (behind sep p) x bs w ∧
        ∃ y, (behind sep p).Fails w y :=
  separateBy_yields_of_behind hp.forward (behind_advances hp) h

theorem separateBy_fails : (separateBy p sep).Fails v w ↔ p.Fails v w := by
  simp [separateBy, map_fails, pair_fails, many_not_fails]

theorem separateBy_faults_of_behind (hp : p.Forward) (hb : (behind sep p).Advances) (h : v.Within) :
    (separateBy p sep).Faults v e ↔
      p.Faults v e ∨ ∃ a x bs y, p.Yields v a x ∧ Repeats (behind sep p) x bs y ∧
        (behind sep p).Faults y e := by
  simp only [separateBy, map_faults, pair_faults]
  refine or_congr_right ⟨fun hh => ?_, fun hh => ?_⟩
  · obtain ⟨x, a, hy, hm⟩ := hh
    obtain ⟨_, hs⟩ := hp v a x h hy
    obtain ⟨bs, y, hr, hf⟩ := (many_faults hb hs.within_next).1 hm
    exact ⟨a, x, bs, y, hy, hr, hf⟩
  · obtain ⟨a, x, bs, y, hy, hr, hf⟩ := hh
    obtain ⟨_, hs⟩ := hp v a x h hy
    exact ⟨x, a, hy, (many_faults hb hs.within_next).2 ⟨bs, y, hr, hf⟩⟩

theorem separateBy_faults (hp : p.Advances) (h : v.Within) :
    (separateBy p sep).Faults v e ↔
      p.Faults v e ∨ ∃ a x bs y, p.Yields v a x ∧ Repeats (behind sep p) x bs y ∧
        (behind sep p).Faults y e :=
  separateBy_faults_of_behind hp.forward (behind_advances hp) h

theorem separateBy_advances (hp : p.Advances) : (separateBy p sep).Advances :=
  (hp.pair (many_forward (behind_advances hp).forward)).map _

end

end PlainJson.Parser
