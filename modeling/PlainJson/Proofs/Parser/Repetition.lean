import PlainJson.Proofs.Parser.Results

/-!
Repetition. Repeating a parser follows the chain of what it yields to the view where it fails. If it
goes over at least one character each time, the chain is shorter than the number of steps that were
counted beforehand, and the repetition comes to an end.
-/
set_option autoImplicit false

namespace PlainJson.Parser

variable {α : Type} {p : Parser α} {v w u : View} {as : List α} {e : Fault}

/-- Begun at `v`, the parser yields the values `as` one after another and comes to `w`. -/
inductive Repeats (p : Parser α) : View → List α → View → Prop where
  | nil (v : View) : Repeats p v [] v
  | cons {v u w : View} {a : α} {as : List α} :
      p.Yields v a u → Repeats p u as w → Repeats p v (a :: as) w

theorem repeats_nil : Repeats p v [] w ↔ w = v := by
  refine ⟨fun h => ?_, fun h => ?_⟩
  · cases h
    rfl
  · rw [h]
    exact .nil v

theorem repeats_cons {a : α} :
    Repeats p v (a :: as) w ↔ ∃ u, p.Yields v a u ∧ Repeats p u as w := by
  refine ⟨fun hh => ?_, fun hh => ?_⟩
  · cases hh with
    | cons hp h => exact ⟨_, hp, h⟩
  · obtain ⟨u, hp, h⟩ := hh
    exact .cons hp h

theorem Repeats.spans (h : Repeats p v as w) (hp : p.Forward) (hv : v.Within) :
    ∃ cs, v.Spans cs w := by
  induction h with
  | nil v => exact ⟨[], View.Spans.refl hv⟩
  | @cons v u w a as hy _ ih =>
    obtain ⟨cs, hs⟩ := hp v a u hv hy
    obtain ⟨ds, ht⟩ := ih hs.within_next
    exact ⟨cs ++ ds, hs.trans ht⟩

theorem Repeats.length_le (h : Repeats p v as w) (hp : p.Advances) (hv : v.Within) :
    as.length ≤ v.room := by
  induction h with
  | nil v => simp
  | @cons v u w a as hy _ ih =>
    obtain ⟨cs, hne, hs⟩ := hp v a u hv hy
    have hl := ih hs.within_next
    have hr := hs.room_lt hne
    simp only [List.length_cons]
    omega

theorem repeatFrom_yields {steps : Nat} {es : List Event} {bs cs : List α} :
    (p.repeatFrom steps es bs v).ending = .ok (.success w cs) ↔
      ∃ as, cs = bs.reverse ++ as ∧ as.length < steps ∧ Repeats p v as w ∧ ∃ u, p.Fails w u := by
  induction steps generalizing es bs v with
  | zero => simp [repeatFrom]
  | succ n ih =>
    unfold repeatFrom
    rcases hr : p.run v with ⟨fs, f | ⟨u, a⟩ | u⟩
    · -- A run that ends by a fault neither yields nor fails, so no chain ends or goes on here.
      have hf : p.Faults v f := by simp [Faults, hr]
      refine ⟨fun hh => by simp at hh, fun hh => ?_⟩
      · obtain ⟨as, -, -, h, x, hx⟩ := hh
        cases h with
        | nil => exact (hx.not_faults hf).elim
        | cons hy _ => exact (hy.not_faults hf).elim
    · have hy : p.Yields v a u := by simp [Yields, hr]
      refine ih.trans ⟨fun hh => ?_, fun hh => ?_⟩
      · obtain ⟨as, rfl, hl, h, hx⟩ := hh
        exact ⟨a :: as, by simp, by simp; omega, .cons hy h, hx⟩
      · obtain ⟨as, rfl, hl, h, x, hx⟩ := hh
        cases h with
        | nil => exact (hy.not_fails hx).elim
        | cons hy' h =>
          obtain ⟨rfl, rfl⟩ := hy.unique hy'
          exact ⟨_, by simp, by simp at hl; omega, h, x, hx⟩
    · have hf : p.Fails v u := by simp [Fails, hr]
      simp only [Except.ok.injEq, Outcome.success.injEq]
      refine ⟨fun hh => ?_, fun hh => ?_⟩
      · obtain ⟨rfl, rfl⟩ := hh
        exact ⟨[], by simp, by simp, .nil v, u, hf⟩
      · obtain ⟨as, rfl, -, h, x, hx⟩ := hh
        cases h with
        | nil => simp
        | cons hy _ => exact (hy.not_fails hf).elim

theorem repeatFrom_not_fails {steps : Nat} {es : List Event} {bs : List α} :
    (p.repeatFrom steps es bs v).ending ≠ .ok (.failure w) := by
  induction steps generalizing es bs v with
  | zero => simp [repeatFrom]
  | succ n ih =>
    unfold repeatFrom
    rcases p.run v with ⟨fs, f | ⟨u, a⟩ | u⟩
    · simp
    · exact ih
    · simp

theorem repeatFrom_faults {steps : Nat} {es : List Event} {bs : List α} :
    (p.repeatFrom steps es bs v).ending = .error e ↔
      (∃ as u, as.length < steps ∧ Repeats p v as u ∧ p.Faults u e) ∨
        e = .endless ∧ ∃ as u, as.length = steps ∧ Repeats p v as u := by
  induction steps generalizing es bs v with
  | zero =>
    simp only [repeatFrom, Except.error.injEq, Nat.not_lt_zero, false_and, exists_false, false_or,
      List.length_eq_zero_iff]
    exact ⟨fun hh => ⟨hh.symm, [], v, rfl, .nil v⟩, fun hh => hh.1.symm⟩
  | succ n ih =>
    unfold repeatFrom
    rcases hr : p.run v with ⟨fs, f | ⟨u, a⟩ | u⟩
    · have hf : p.Faults v f := by simp [Faults, hr]
      have hf' : p.Faults v e → f = e := by
        intro h
        simp only [Faults] at hf h
        rw [hf] at h
        simpa using h
      simp only [Except.error.injEq]
      refine ⟨fun hh => ?_, fun hh => ?_⟩
      · subst hh
        exact .inl ⟨[], v, by simp, .nil v, hf⟩
      · rcases hh with ⟨as, x, -, h, hx⟩ | ⟨-, as, x, hl, h⟩
        · cases h with
          | nil => exact hf' hx
          | cons hy _ => exact (hy.not_faults hf).elim
        · cases h with
          | nil => simp at hl
          | cons hy _ => exact (hy.not_faults hf).elim
    · have hy : p.Yields v a u := by simp [Yields, hr]
      refine ih.trans ⟨fun hh => ?_, fun hh => ?_⟩
      · rcases hh with ⟨as, x, hl, h, hx⟩ | ⟨rfl, as, x, hl, h⟩
        · exact .inl ⟨a :: as, x, by simp; omega, .cons hy h, hx⟩
        · exact .inr ⟨rfl, a :: as, x, by simp; omega, .cons hy h⟩
      · rcases hh with ⟨as, x, hl, h, hx⟩ | ⟨rfl, as, x, hl, h⟩
        · cases h with
          | nil => exact (hy.not_faults hx).elim
          | cons hy' h =>
            obtain ⟨rfl, rfl⟩ := hy.unique hy'
            exact .inl ⟨_, x, by simp at hl; omega, h, hx⟩
        · cases h with
          | nil => simp at hl
          | cons hy' h =>
            obtain ⟨rfl, rfl⟩ := hy.unique hy'
            exact .inr ⟨rfl, _, x, by simp at hl; omega, h⟩
    · have hf : p.Fails v u := by simp [Fails, hr]
      refine ⟨fun hh => by simp at hh, fun hh => ?_⟩
      · rcases hh with ⟨as, x, -, h, hx⟩ | ⟨-, as, x, hl, h⟩
        · cases h with
          | nil => exact (hf.not_faults hx).elim
          | cons hy _ => exact (hy.not_fails hf).elim
        · cases h with
          | nil => simp at hl
          | cons hy _ => exact (hy.not_fails hf).elim

theorem many_not_fails : ¬ (many p).Fails v w := repeatFrom_not_fails

theorem many_yields (hp : p.Advances) (hv : v.Within) :
    (many p).Yields v as w ↔ Repeats p v as w ∧ ∃ u, p.Fails w u := by
  refine repeatFrom_yields.trans ?_
  simp only [List.reverse_nil, List.nil_append]
  refine ⟨fun hh => ?_, fun hh => ?_⟩
  · obtain ⟨as, rfl, -, h⟩ := hh
    exact h
  · obtain ⟨h, hx⟩ := hh
    have hl := h.length_le hp hv
    have hr := v.room_lt_reach
    exact ⟨as, rfl, by omega, h, hx⟩

theorem many_faults (hp : p.Advances) (hv : v.Within) :
    (many p).Faults v e ↔ ∃ as u, Repeats p v as u ∧ p.Faults u e := by
  refine repeatFrom_faults.trans ?_
  have hr := v.room_lt_reach
  refine ⟨fun hh => ?_, fun hh => ?_⟩
  · rcases hh with ⟨as, u, -, h⟩ | ⟨-, as, u, hl, h⟩
    · exact ⟨as, u, h⟩
    · have hl' := h.length_le hp hv
      omega
  · obtain ⟨as, u, h, hx⟩ := hh
    have hl := h.length_le hp hv
    exact .inl ⟨as, u, by omega, h, hx⟩

/-- One turn more than there are characters ahead is always enough. -/
theorem repeatFrom_steps {m n : Nat} (hp : p.Advances) (es : List Event) (bs : List α)
    (hv : v.Within) (hm : v.room < m) (hn : v.room < n) :
    p.repeatFrom m es bs v = p.repeatFrom n es bs v := by
  induction m generalizing n es bs v with
  | zero => exact (Nat.not_lt_zero _ hm).elim
  | succ m ih =>
    obtain ⟨n, rfl⟩ := Nat.exists_eq_succ_of_ne_zero (Nat.ne_of_gt (Nat.zero_lt_of_lt hn))
    unfold repeatFrom
    rcases hr : p.run v with ⟨fs, f | ⟨u, a⟩ | u⟩
    · rfl
    · obtain ⟨cs, hne, hs⟩ := hp v a u hv (by simp [Yields, hr])
      have hl := hs.room_lt hne
      exact ih (es ++ fs) (a :: bs) hs.within_next (by omega) (by omega)
    · rfl

theorem many_forward (hp : p.Forward) : (many p).Forward := by
  intro v as w hv hy
  obtain ⟨as, -, -, h, -⟩ := repeatFrom_yields.1 hy
  exact h.spans hp hv

theorem many1_advances (hp : p.Advances) : (many1 p).Advances :=
  (hp.pair (many_forward hp.forward)).map _

theorem separateBy_forward (hp : p.Forward) (sep : String) (hs : (literal sep).Forward) :
    (separateBy p sep).Forward :=
  (hp.pair (many_forward (hs.right hp))).map _

end PlainJson.Parser
