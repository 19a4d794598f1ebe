import PlainJson.Proofs.Parser.Agreement

/-!
Putting parsers together in another way. To group a sequence differently, or to refuse values in one
go, or before they are turned into others, makes no difference to a run. What all alternatives of a
choice begin with can be read before the choice: the same is yielded, but a failure is then seen
where it comes up, and no longer at the view that the choice was given.
-/
set_option autoImplicit false

namespace PlainJson.Parser

variable {α β γ : Type} {p a : Parser α} {b : Parser β} {c : Parser γ} {v w : View} {e : Fault}

/-- A sequence of three, grouped from the left, as one that is grouped from the right. -/
def regroup (x : (α × β) × γ) : α × β × γ := (x.1.1, x.1.2, x.2)

theorem pair_assoc_run : (((a.pair b).pair c).map regroup).run v = (a.pair (b.pair c)).run v := by
  simp only [map, pair, Run.andThen_assoc]
  refine Run.andThen_congr fun o _ => ?_
  cases o with
  | failure w => rfl
  | success w x =>
    simp only [Run.andThen_assoc]
    refine Run.andThen_congr fun o _ => ?_
    cases o with
    | failure u => rfl
    | success u y =>
      simp only [Run.done_andThen, Run.andThen_assoc]
      refine Run.andThen_congr fun o _ => ?_
      cases o with
      | failure t => rfl
      | success t z => rfl

theorem filter_filter_run (f g : α → Bool) :
    ((p.filter f).filter g).run v = (p.filter fun x => f x && g x).run v := by
  simp only [filter, Run.andThen_assoc]
  refine Run.andThen_congr fun o _ => ?_
  cases o with
  | failure w => rfl
  | success w x => cases hf : f x <;> simp [hf]

theorem filter_map_run (h : α → β) (f : β → Bool) :
    ((p.map h).filter f).run v = ((p.filter fun x => f (h x)).map h).run v := by
  simp only [filter, map, Run.andThen_assoc]
  refine Run.andThen_congr fun o _ => ?_
  cases o with
  | failure w => rfl
  | success w x => cases hf : f (h x) <;> simp [hf, Outcome.map]

theorem exists_fails_iff :
    (∃ w, p.Fails v w) ↔ (∀ x w, ¬ p.Yields v x w) ∧ ∀ e, ¬ p.Faults v e := by
  refine ⟨fun hh => ?_, fun hh => ?_⟩
  · obtain ⟨w, hw⟩ := hh
    exact ⟨fun x u hy => hy.not_fails hw, fun e => hw.not_faults⟩
  · rcases p.ends v with ⟨x, w, hy⟩ | hf | ⟨e, he⟩
    · exact (hh.1 x w hy).elim
    · exact hf
    · exact (hh.2 e he).elim

/-- The view behind what `a` yields is the same for every alternative. -/
theorem either_pair_yields {x : α × β} (bs : List (Parser β)) :
    (either (bs.map fun b _ => a.pair b)).Yields v x w ↔
      (a.pair (either (bs.map fun b _ => b))).Yields v x w := by
  induction bs with
  | nil => simp [pair_yields, either_nil_not_yields]
  | cons b bs ih =>
    simp only [List.map_cons, either_cons_yields, ih, pair_yields, pair_fails]
    refine ⟨fun hh => ?_, fun hh => ?_⟩
    · rcases hh with ⟨u, ha, hb⟩ | ⟨⟨z, hf | ⟨u, y, ha, hb⟩⟩, t, ha', hr⟩
      · exact ⟨u, ha, .inl hb⟩
      · exact (ha'.not_fails hf).elim
      · obtain ⟨-, rfl⟩ := ha.unique ha'
        exact ⟨u, ha', .inr ⟨⟨z, hb⟩, hr⟩⟩
    · obtain ⟨u, ha, hb | ⟨⟨z, hb⟩, hr⟩⟩ := hh
      · exact .inl ⟨u, ha, hb⟩
      · exact .inr ⟨⟨z, .inr ⟨u, x.1, ha, hb⟩⟩, u, ha, hr⟩

/-- Without an alternative, `a` would not be tried at all. -/
theorem either_pair_faults (b : Parser β) (bs : List (Parser β)) :
    (either ((b :: bs).map fun b _ => a.pair b)).Faults v e ↔
      (a.pair (either ((b :: bs).map fun b _ => b))).Faults v e := by
  induction bs generalizing b with
  | nil => simp [pair_faults, either_cons_faults, either_nil_not_faults]
  | cons c bs ih =>
    rw [List.map_cons, either_cons_faults, ih c]
    generalize c :: bs = cs
    simp only [List.map_cons, either_cons_faults, pair_faults, pair_fails]
    refine ⟨fun hh => ?_, fun hh => ?_⟩
    · rcases hh with (ha | ⟨u, x, ha, hb⟩) | ⟨⟨z, hf | ⟨u, x, ha, hb⟩⟩, ha' | ⟨t, y, ha', hr⟩⟩
      · exact .inl ha
      · exact .inr ⟨u, x, ha, .inl hb⟩
      · exact .inl ha'
      · exact (ha'.not_fails hf).elim
      · exact .inl ha'
      · obtain ⟨-, rfl⟩ := ha.unique ha'
        exact .inr ⟨u, x, ha, .inr ⟨⟨z, hb⟩, hr⟩⟩
    · rcases hh with ha | ⟨u, x, ha, hb | ⟨⟨z, hb⟩, hr⟩⟩
      · exact .inl (.inl ha)
      · exact .inl (.inr ⟨u, x, ha, hb⟩)
      · exact .inr ⟨⟨z, .inr ⟨u, x, ha, hb⟩⟩, .inr ⟨u, x, ha, hr⟩⟩

/-- The choice fails at the view itself, on the same views as the pair. -/
theorem either_pair_fails (b : Parser β) (bs : List (Parser β)) :
    (either ((b :: bs).map fun b _ => a.pair b)).Fails v w ↔
      w = v ∧ ∃ u, (a.pair (either ((b :: bs).map fun b _ => b))).Fails v u := by
  have hx : (∃ u, (either ((b :: bs).map fun b _ => a.pair b)).Fails v u) ↔
      ∃ u, (a.pair (either ((b :: bs).map fun b _ => b))).Fails v u := by
    simp only [exists_fails_iff, either_pair_yields, either_pair_faults]
  rw [← hx]
  simp only [either_fails, exists_eq_left]

theorem pair_either_fails (bs : List (Parser β)) :
    (a.pair (either (bs.map fun b _ => b))).Fails v w ↔
      a.Fails v w ∨ ∃ x, a.Yields v x w ∧ ∀ b ∈ bs, ∃ u, b.Fails w u := by
  simp only [pair_fails, either_fails, List.forall_mem_map]
  refine or_congr_right ⟨fun hh => ?_, fun hh => ?_⟩
  · obtain ⟨u, x, ha, rfl, hb⟩ := hh
    exact ⟨x, ha, hb⟩
  · obtain ⟨x, ha, hb⟩ := hh
    exact ⟨w, x, ha, rfl, hb⟩

/-- Pairs can be grouped either way. Two refusals are one, and a value may be refused before it is
turned into another. All of this leaves the run as it is, and with it the place of a failure. Two
alternatives that begin in the same way yield what a choice behind the beginning yields, and fail,
or fault, on the same views. But they fail at the view itself, while the other fails where the
beginning does or, if neither alternative goes on from there, right behind it. -/
theorem refactoring_laws (a : Parser α) (b b' : Parser β) (c : Parser γ) (h : α → β)
    (f g : α → Bool) (k : β → Bool) (v : View) :
    (((a.pair b).pair c).map regroup).run v = (a.pair (b.pair c)).run v ∧
    ((a.filter f).filter g).run v = (a.filter fun x => f x && g x).run v ∧
    ((a.map h).filter k).run v = ((a.filter fun x => k (h x)).map h).run v ∧
    (∀ x w, (either [fun _ => a.pair b, fun _ => a.pair b']).Yields v x w ↔
      (a.pair (either [fun _ => b, fun _ => b'])).Yields v x w) ∧
    (∀ e, (either [fun _ => a.pair b, fun _ => a.pair b']).Faults v e ↔
      (a.pair (either [fun _ => b, fun _ => b'])).Faults v e) ∧
    (∀ w, (either [fun _ => a.pair b, fun _ => a.pair b']).Fails v w ↔
      w = v ∧ ∃ u, (a.pair (either [fun _ => b, fun _ => b'])).Fails v u) ∧
    ∀ w, (a.pair (either [fun _ => b, fun _ => b'])).Fails v w ↔
      a.Fails v w ∨ ∃ x, a.Yields v x w ∧ (∃ u, b.Fails w u) ∧ ∃ u, b'.Fails w u := by
  refine ⟨pair_assoc_run, filter_filter_run f g, filter_map_run h k, fun x w => ?_, fun e => ?_,
    fun w => ?_, fun w => ?_⟩
  · exact either_pair_yields [b, b']
  · exact either_pair_faults b [b']
  · exact either_pair_fails b [b']
  · simpa using pair_either_fails (a := a) (v := v) (w := w) [b, b']

end PlainJson.Parser
