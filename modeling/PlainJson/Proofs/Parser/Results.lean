import PlainJson.Parser.Basic
import PlainJson.Proofs.Parser.Span
import PlainJson.Proofs.Text.Stretch

/-!
The three ways in which a parser can end on a view: it yields a value and the view that remains, it
fails at a view, or it ends the run by a fault. For every way to combine parsers, each of the three
is told in terms of the parsers combined.
-/
set_option autoImplicit false

namespace PlainJson

namespace Run

variable {α β : Type}

@[simp] theorem ending_done (a : α) : (done a).ending = .ok a := rfl

@[simp] theorem ending_ofExcept (x : Except Fault α) : (ofExcept x).ending = x := rfl

theorem ending_andThen_ok {x : Run α} {f : α → Run β} {b : β} :
    (x.andThen f).ending = .ok b ↔ ∃ a, x.ending = .ok a ∧ (f a).ending = .ok b := by
  cases x with
  | mk es e => cases e <;> simp [andThen, after]

theorem ending_andThen_error {x : Run α} {f : α → Run β} {e : Fault} :
    (x.andThen f).ending = .error e ↔
      x.ending = .error e ∨ ∃ a, x.ending = .ok a ∧ (f a).ending = .error e := by
  cases x with
  | mk es d => cases d <;> simp [andThen, after]

end Run

namespace Parser

variable {α β : Type}

def Yields (p : Parser α) (v : View) (a : α) (w : View) : Prop :=
  (p.run v).ending = .ok (.success w a)

def Fails (p : Parser α) (v w : View) : Prop := (p.run v).ending = .ok (.failure w)

def Faults (p : Parser α) (v : View) (e : Fault) : Prop := (p.run v).ending = .error e

/-- What `p` yields lies ahead of where it began. -/
def Forward (p : Parser α) : Prop :=
  ∀ v a w, v.Within → p.Yields v a w → ∃ cs, v.Spans cs w

/-- Besides, `p` never yields anything without going over at least one character. -/
def Advances (p : Parser α) : Prop :=
  ∀ v a w, v.Within → p.Yields v a w → ∃ cs, cs ≠ [] ∧ v.Spans cs w

theorem Advances.forward {p : Parser α} (hp : p.Advances) : p.Forward := by
  intro v a w h hy
  obtain ⟨cs, _, hs⟩ := hp v a w h hy
  exact ⟨cs, hs⟩

section
variable {p : Parser α} {q : Parser β} {v w u : View} {a b : α} {e : Fault}

theorem ends (p : Parser α) (v : View) :
    (∃ a w, p.Yields v a w) ∨ (∃ w, p.Fails v w) ∨ ∃ e, p.Faults v e := by
  simp only [Yields, Fails, Faults]
  rcases (p.run v).ending with e | ⟨w, a⟩ | w
  · exact .inr (.inr ⟨e, rfl⟩)
  · exact .inl ⟨a, w, rfl⟩
  · exact .inr (.inl ⟨w, rfl⟩)

theorem Yields.unique (h : p.Yields v a w) (h' : p.Yields v b u) : a = b ∧ w = u := by
  simp only [Yields] at h h'
  rw [h] at h'
  simp only [Except.ok.injEq, Outcome.success.injEq] at h'
  exact ⟨h'.2, h'.1⟩

theorem Fails.unique (h : p.Fails v w) (h' : p.Fails v u) : w = u := by
  simp only [Fails] at h h'
  rw [h] at h'
  simpa using h'

theorem Yields.not_fails (h : p.Yields v a w) : ¬ p.Fails v u := by
  simp only [Yields, Fails] at *
  rw [h]; simp

theorem Yields.not_faults (h : p.Yields v a w) : ¬ p.Faults v e := by
  simp only [Yields, Faults] at *
  rw [h]; simp

theorem Fails.not_faults (h : p.Fails v w) : ¬ p.Faults v e := by
  simp only [Fails, Faults] at *
  rw [h]; simp

/-- How a run goes on after `p` is told for what `p` yields and for where it fails. -/
theorem run_andThen_ok {γ : Type} {f : Outcome α → Run γ} {c : γ} :
    ((p.run v).andThen f).ending = .ok c ↔
      (∃ u a, p.Yields v a u ∧ (f (.success u a)).ending = .ok c) ∨
        ∃ u, p.Fails v u ∧ (f (.failure u)).ending = .ok c := by
  rw [Run.ending_andThen_ok]
  refine ⟨fun hh => ?_, fun hh => ?_⟩
  · obtain ⟨⟨u, a⟩ | u, ho, h⟩ := hh
    · exact .inl ⟨u, a, ho, h⟩
    · exact .inr ⟨u, ho, h⟩
  · rcases hh with ⟨u, a, ho, h⟩ | ⟨u, ho, h⟩
    · exact ⟨_, ho, h⟩
    · exact ⟨_, ho, h⟩

theorem run_andThen_error {γ : Type} {f : Outcome α → Run γ} :
    ((p.run v).andThen f).ending = .error e ↔
      p.Faults v e ∨ (∃ u a, p.Yields v a u ∧ (f (.success u a)).ending = .error e) ∨
        ∃ u, p.Fails v u ∧ (f (.failure u)).ending = .error e := by
  rw [Run.ending_andThen_error]
  refine ⟨fun hh => ?_, fun hh => ?_⟩
  · rcases hh with hp | ⟨⟨u, a⟩ | u, ho, h⟩
    · exact .inl hp
    · exact .inr (.inl ⟨u, a, ho, h⟩)
    · exact .inr (.inr ⟨u, ho, h⟩)
  · rcases hh with hp | ⟨u, a, ho, h⟩ | ⟨u, ho, h⟩
    · exact .inl hp
    · exact .inr ⟨_, ho, h⟩
    · exact .inr ⟨_, ho, h⟩

theorem pair_yields {c : α × β} :
    (p.pair q).Yields v c w ↔ ∃ u, p.Yields v c.1 u ∧ q.Yields u c.2 w := by
  refine run_andThen_ok.trans ?_
  simp only [run_andThen_ok]
  refine ⟨fun hh => ?_, fun hh => ?_⟩
  · rcases hh with ⟨u, a, hp, ⟨x, b, hq, h⟩ | ⟨x, _, h⟩⟩ | ⟨u, _, h⟩
    · cases h
      exact ⟨u, hp, hq⟩
    · cases h
    · cases h
  · obtain ⟨u, hp, hq⟩ := hh
    exact .inl ⟨u, c.1, hp, .inl ⟨w, c.2, hq, rfl⟩⟩

theorem pair_fails :
    (p.pair q).Fails v w ↔ p.Fails v w ∨ ∃ u a, p.Yields v a u ∧ q.Fails u w := by
  refine run_andThen_ok.trans ?_
  simp only [run_andThen_ok]
  refine ⟨fun hh => ?_, fun hh => ?_⟩
  · rcases hh with ⟨u, a, hp, ⟨x, b, _, h⟩ | ⟨x, hq, h⟩⟩ | ⟨u, hp, h⟩
    · cases h
    · cases h
      exact .inr ⟨u, a, hp, hq⟩
    · cases h
      exact .inl hp
  · rcases hh with hp | ⟨u, a, hp, hq⟩
    · exact .inr ⟨w, hp, rfl⟩
    · exact .inl ⟨u, a, hp, .inr ⟨w, hq, rfl⟩⟩

theorem pair_faults :
    (p.pair q).Faults v e ↔ p.Faults v e ∨ ∃ u a, p.Yields v a u ∧ q.Faults u e := by
  refine run_andThen_error.trans ?_
  simp [run_andThen_error]

theorem map_yields {f : α → β} {b : β} :
    (p.map f).Yields v b w ↔ ∃ a, p.Yields v a w ∧ b = f a := by
  refine run_andThen_ok.trans ?_
  refine ⟨fun hh => ?_, fun hh => ?_⟩
  · rcases hh with ⟨u, a, hp, h⟩ | ⟨u, _, h⟩
    · cases h
      exact ⟨a, hp, rfl⟩
    · cases h
  · obtain ⟨a, hp, rfl⟩ := hh
    exact .inl ⟨w, a, hp, rfl⟩

theorem map_fails {f : α → β} : (p.map f).Fails v w ↔ p.Fails v w := by
  refine run_andThen_ok.trans ?_
  simp [Outcome.map]

theorem map_faults {f : α → β} : (p.map f).Faults v e ↔ p.Faults v e := by
  refine run_andThen_error.trans ?_
  simp

theorem convert_yields {f : α → Except Fault β} {b : β} :
    (p.convert f).Yields v b w ↔ ∃ a, p.Yields v a w ∧ f a = .ok b := by
  refine run_andThen_ok.trans ?_
  simp only [Run.ending_andThen_ok, Run.ending_ofExcept]
  refine ⟨fun hh => ?_, fun hh => ?_⟩
  · rcases hh with ⟨u, a, hp, c, hf, h⟩ | ⟨u, _, h⟩
    · cases h
      exact ⟨a, hp, hf⟩
    · cases h
  · obtain ⟨a, hp, hf⟩ := hh
    exact .inl ⟨w, a, hp, b, hf, rfl⟩

theorem convert_fails {f : α → Except Fault β} : (p.convert f).Fails v w ↔ p.Fails v w := by
  refine run_andThen_ok.trans ?_
  simp [Run.ending_andThen_ok]

theorem convert_faults {f : α → Except Fault β} :
    (p.convert f).Faults v e ↔ p.Faults v e ∨ ∃ a w, p.Yields v a w ∧ f a = .error e := by
  refine run_andThen_error.trans ?_
  simp only [Run.ending_andThen_error, Run.ending_ofExcept, Run.ending_done, reduceCtorEq,
    and_false, exists_false, or_false]
  exact or_congr_right exists_comm

theorem left_yields {a : α} :
    (p.left q).Yields v a w ↔ ∃ u b, p.Yields v a u ∧ q.Yields u b w := by
  simp only [left, map_yields, pair_yields]
  refine ⟨fun hh => ?_, fun hh => ?_⟩
  · obtain ⟨⟨a, b⟩, ⟨u, hp, hq⟩, rfl⟩ := hh
    exact ⟨u, b, hp, hq⟩
  · obtain ⟨u, b, hp, hq⟩ := hh
    exact ⟨(a, b), ⟨u, hp, hq⟩, rfl⟩

theorem left_fails :
    (p.left q).Fails v w ↔ p.Fails v w ∨ ∃ u a, p.Yields v a u ∧ q.Fails u w := by
  rw [left, map_fails, pair_fails]

theorem left_faults :
    (p.left q).Faults v e ↔ p.Faults v e ∨ ∃ u a, p.Yields v a u ∧ q.Faults u e := by
  rw [left, map_faults, pair_faults]

theorem right_yields {b : β} :
    (p.right q).Yields v b w ↔ ∃ u a, p.Yields v a u ∧ q.Yields u b w := by
  simp only [right, map_yields, pair_yields]
  refine ⟨fun hh => ?_, fun hh => ?_⟩
  · obtain ⟨⟨a, b⟩, ⟨u, hp, hq⟩, rfl⟩ := hh
    exact ⟨u, a, hp, hq⟩
  · obtain ⟨u, a, hp, hq⟩ := hh
    exact ⟨(a, b), ⟨u, hp, hq⟩, rfl⟩

theorem right_fails :
    (p.right q).Fails v w ↔ p.Fails v w ∨ ∃ u a, p.Yields v a u ∧ q.Fails u w := by
  rw [right, map_fails, pair_fails]

theorem right_faults :
    (p.right q).Faults v e ↔ p.Faults v e ∨ ∃ u a, p.Yields v a u ∧ q.Faults u e := by
  rw [right, map_faults, pair_faults]

theorem filter_yields {f : α → Bool} :
    (p.filter f).Yields v a w ↔ p.Yields v a w ∧ f a = true := by
  refine run_andThen_ok.trans ?_
  refine ⟨fun hh => ?_, fun hh => ?_⟩
  · rcases hh with ⟨u, b, hp, h⟩ | ⟨u, _, h⟩
    · by_cases hf : f b = true
      · simp only [hf, if_true, Run.ending_done, Except.ok.injEq, Outcome.success.injEq] at h
        obtain ⟨rfl, rfl⟩ := h
        exact ⟨hp, hf⟩
      · simp [hf] at h
    · cases h
  · obtain ⟨hp, hf⟩ := hh
    exact .inl ⟨w, a, hp, by simp [hf]⟩

theorem filter_fails {f : α → Bool} :
    (p.filter f).Fails v w ↔ p.Fails v w ∨ w = v ∧ ∃ a u, p.Yields v a u ∧ f a = false := by
  refine run_andThen_ok.trans ?_
  refine ⟨fun hh => ?_, fun hh => ?_⟩
  · rcases hh with ⟨u, a, hp, h⟩ | ⟨u, hp, h⟩
    · by_cases hf : f a = true
      · simp [hf] at h
      · simp only [hf, Bool.false_eq_true, if_false, Run.ending_done, Except.ok.injEq,
          Outcome.failure.injEq] at h
        exact .inr ⟨h.symm, a, u, hp, by simpa using hf⟩
    · cases h
      exact .inl hp
  · rcases hh with hp | ⟨rfl, a, u, hp, hf⟩
    · exact .inr ⟨w, hp, rfl⟩
    · exact .inl ⟨u, a, hp, by simp [hf]⟩

theorem filter_faults {f : α → Bool} : (p.filter f).Faults v e ↔ p.Faults v e := by
  refine run_andThen_error.trans ?_
  simp

end

section
variable {build : Unit → Parser α} {builds : List (Unit → Parser α)} {v w : View} {a : α}
  {e : Fault}

theorem either_nil_fails : (either ([] : List (Unit → Parser α))).Fails v w ↔ w = v := by
  simp [Fails, either, eitherOf, firstOf, eq_comm]

theorem either_nil_not_yields : ¬ (either ([] : List (Unit → Parser α))).Yields v a w := by
  simp [Yields, either, eitherOf, firstOf]

theorem either_nil_not_faults : ¬ (either ([] : List (Unit → Parser α))).Faults v e := by
  simp [Faults, either, eitherOf, firstOf]

theorem either_cons_yields :
    (either (build :: builds)).Yields v a w ↔
      (build ()).Yields v a w ∨ (∃ u, (build ()).Fails v u) ∧ (either builds).Yields v a w := by
  refine run_andThen_ok.trans ?_
  refine ⟨fun hh => ?_, fun hh => ?_⟩
  · rcases hh with ⟨u, b, hp, h⟩ | ⟨u, hp, h⟩
    · cases h
      exact .inl hp
    · exact .inr ⟨⟨u, hp⟩, h⟩
  · rcases hh with hp | ⟨⟨u, hp⟩, h⟩
    · exact .inl ⟨w, a, hp, rfl⟩
    · exact .inr ⟨u, hp, h⟩

theorem either_cons_fails :
    (either (build :: builds)).Fails v w ↔
      (∃ u, (build ()).Fails v u) ∧ (either builds).Fails v w := by
  refine run_andThen_ok.trans ?_
  refine ⟨fun hh => ?_, fun hh => ?_⟩
  · rcases hh with ⟨u, b, _, h⟩ | ⟨u, hp, h⟩
    · cases h
    · exact ⟨⟨u, hp⟩, h⟩
  · obtain ⟨⟨u, hp⟩, h⟩ := hh
    exact .inr ⟨u, hp, h⟩

theorem either_cons_faults :
    (either (build :: builds)).Faults v e ↔
      (build ()).Faults v e ∨ (∃ u, (build ()).Fails v u) ∧ (either builds).Faults v e := by
  refine run_andThen_error.trans ?_
  refine ⟨fun hh => ?_, fun hh => ?_⟩
  · rcases hh with hp | ⟨u, b, _, h⟩ | ⟨u, hp, h⟩
    · exact .inl hp
    · cases h
    · exact .inr ⟨⟨u, hp⟩, h⟩
  · rcases hh with hp | ⟨⟨u, hp⟩, h⟩
    · exact .inl hp
    · exact .inr (.inr ⟨u, hp, h⟩)

theorem either_fails :
    (either builds).Fails v w ↔ w = v ∧ ∀ build ∈ builds, ∃ u, (build ()).Fails v u := by
  induction builds with
  | nil => simp [either_nil_fails]
  | cons build builds ih =>
    rw [either_cons_fails, ih]
    simp only [List.forall_mem_cons]
    exact and_left_comm

/-- Of the parsers, at most one does not fail on the view. -/
def Exclusive {κ : Type} (r : κ → Parser α) (v : View) : Prop :=
  ∀ k k', k ≠ k' → (∃ u, (r k).Fails v u) ∨ ∃ u, (r k').Fails v u

variable {κ : Type} {r : κ → Parser α}

/-- Where at most one alternative does not fail, their order does not matter. -/
theorem either_yields (h : Exclusive r v) (ks : List κ) :
    (either (ks.map fun k _ => r k)).Yields v a w ↔ ∃ k ∈ ks, (r k).Yields v a w := by
  induction ks with
  | nil => simp [either_nil_not_yields]
  | cons k ks ih =>
    rw [List.map_cons, either_cons_yields, ih]
    refine ⟨fun hh => ?_, fun hh => ?_⟩
    · rcases hh with hy | ⟨_, k', hk, hy⟩
      · exact ⟨k, by simp, hy⟩
      · exact ⟨k', by simp [hk], hy⟩
    · obtain ⟨k', hk, hy⟩ := hh
      by_cases he : k' = k
      · exact .inl (he ▸ hy)
      · rcases h k' k he with ⟨u, hf⟩ | hf
        · exact (hy.not_fails hf).elim
        · exact .inr ⟨hf, k', by simpa [he] using hk, hy⟩

theorem either_faults (h : Exclusive r v) (ks : List κ) :
    (either (ks.map fun k _ => r k)).Faults v e ↔ ∃ k ∈ ks, (r k).Faults v e := by
  induction ks with
  | nil => simp [either_nil_not_faults]
  | cons k ks ih =>
    rw [List.map_cons, either_cons_faults, ih]
    refine ⟨fun hh => ?_, fun hh => ?_⟩
    · rcases hh with hy | ⟨_, k', hk, hy⟩
      · exact ⟨k, by simp, hy⟩
      · exact ⟨k', by simp [hk], hy⟩
    · obtain ⟨k', hk, hy⟩ := hh
      by_cases he : k' = k
      · exact .inl (he ▸ hy)
      · rcases h k' k he with ⟨u, hf⟩ | hf
        · exact (hf.not_faults hy).elim
        · exact .inr ⟨hf, k', by simpa [he] using hk, hy⟩

end

section
variable {p : Parser α} {q : Parser β}

theorem Forward.pair (hp : p.Forward) (hq : q.Forward) : (p.pair q).Forward := by
  intro v c w h hy
  obtain ⟨u, hu, hw⟩ := pair_yields.1 hy
  obtain ⟨cs, hs⟩ := hp v _ u h hu
  obtain ⟨ds, ht⟩ := hq u _ w hs.within_next hw
  exact ⟨cs ++ ds, hs.trans ht⟩

theorem Forward.map (hp : p.Forward) (f : α → β) : (p.map f).Forward := by
  intro v b w h hy
  obtain ⟨a, ha, -⟩ := map_yields.1 hy
  exact hp v a w h ha

theorem Advances.map (hp : p.Advances) (f : α → β) : (p.map f).Advances := by
  intro v b w h hy
  obtain ⟨a, ha, -⟩ := map_yields.1 hy
  exact hp v a w h ha

theorem Advances.pair (hp : p.Advances) (hq : q.Forward) : (p.pair q).Advances := by
  intro v c w h hy
  obtain ⟨u, hu, hw⟩ := pair_yields.1 hy
  obtain ⟨cs, hne, hs⟩ := hp v _ u h hu
  obtain ⟨ds, ht⟩ := hq u _ w hs.within_next hw
  exact ⟨cs ++ ds, by simp [hne], hs.trans ht⟩

theorem Forward.pair_advances (hp : p.Forward) (hq : q.Advances) : (p.pair q).Advances := by
  intro v c w h hy
  obtain ⟨u, hu, hw⟩ := pair_yields.1 hy
  obtain ⟨cs, hs⟩ := hp v _ u h hu
  obtain ⟨ds, hne, ht⟩ := hq u _ w hs.within_next hw
  exact ⟨cs ++ ds, by simp [hne], hs.trans ht⟩

theorem Forward.left (hp : p.Forward) (hq : q.Forward) : (p.left q).Forward :=
  (hp.pair hq).map _

theorem Forward.right (hp : p.Forward) (hq : q.Forward) : (p.right q).Forward :=
  (hp.pair hq).map _

theorem Advances.left (hp : p.Advances) (hq : q.Forward) : (p.left q).Advances :=
  (hp.pair hq).map _

theorem Advances.right (hp : p.Advances) (hq : q.Forward) : (p.right q).Advances :=
  (hp.pair hq).map _

theorem Forward.right_advances (hp : p.Forward) (hq : q.Advances) : (p.right q).Advances :=
  (hp.pair_advances hq).map _

theorem Advances.convert (hp : p.Advances) (f : α → Except Fault β) :
    (p.convert f).Advances := by
  intro v b w h hy
  obtain ⟨a, ha, -⟩ := convert_yields.1 hy
  exact hp v a w h ha

theorem Advances.filter (hp : p.Advances) (f : α → Bool) : (p.filter f).Advances := by
  intro v a w h hy
  exact hp v a w h (filter_yields.1 hy).1

theorem Advances.either {builds : List (Unit → Parser α)}
    (hp : ∀ build ∈ builds, (build ()).Advances) : (either builds).Advances := by
  induction builds with
  | nil => exact fun v a w _ hy => (either_nil_not_yields hy).elim
  | cons build builds ih =>
    intro v a w h hy
    rcases either_cons_yields.1 hy with hb | ⟨-, hb⟩
    · exact hp build (by simp) v a w h hb
    · exact ih (fun b hm => hp b (by simp [hm])) v a w h hb

end

end Parser

end PlainJson
