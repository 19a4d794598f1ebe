import PlainJson.Proofs.Parser.Range

/-!
Text in front of a view. A parser that only looks at what is ahead does the same in a longer text,
where all positions are further to the right by what stands in front. For a repetition that needs
every turn to go over at least one character: only then does it not matter how many turns are
allowed, which depends on the text as a whole.
-/
set_option autoImplicit false

namespace PlainJson

namespace View

variable {v w : View} {cs : List Char}

/-- The view with the text `u` in front of its own. -/
def shift (u : Array Char) (v : View) : View := ⟨u ++ v.text, u.size + v.pos⟩

theorem shift_within (u : Array Char) (h : v.Within) : (v.shift u).Within := by
  have h₁ := h.1
  have h₂ := h.2
  simp only [Within, shift, Array.size_append]
  omega

theorem rest_shift (u : Array Char) (h : v.Within) : (v.shift u).rest = v.rest := by
  have h₁ := h.1
  have hn : ((u.size : Int) + v.pos).toNat = u.toList.length + v.pos.toNat := by
    rw [Array.length_toList]
    omega
  rw [rest, rest, start_of_within h, start_of_within (shift_within u h)]
  simp only [shift, Array.toList_append, hn]
  exact List.drop_length_add_append _

theorem room_shift (u : Array Char) (v : View) : (v.shift u).room = v.room := by
  simp only [room, shift, Array.size_append]
  omega

theorem shift_ofString (u w : String) (k : Nat) :
    (ofString w k).shift u.toList.toArray = ofString (u ++ w) (u.length + k) := by
  simp [shift, ofString, String.toList_append, String.length_toList]

theorem Spans.shift (u : Array Char) (h : v.Spans cs w) :
    (v.shift u).Spans cs (w.shift u) where
  within := shift_within u h.within
  next := by
    rw [h.next]
    simp [View.shift, advance, Int.add_assoc]
  ahead := by rw [rest_shift u h.within, rest_shift u h.within_next, h.ahead]

end View

/-- The result with the text `u` in front of the remaining text. -/
def Outcome.shift {α : Type} (u : Array Char) : Outcome α → Outcome α
  | .success w a => .success (w.shift u) a
  | .failure w => .failure (w.shift u)

namespace Parser

variable {α β : Type} {p : Parser α} {q : Parser β}

/-- What stands before the view makes no difference. -/
structure Local (p : Parser α) : Prop where
  yields : ∀ {u v a w}, v.Within → p.Yields v a w → p.Yields (v.shift u) a (w.shift u)
  fails : ∀ {u v w}, v.Within → p.Fails v w → p.Fails (v.shift u) (w.shift u)
  faults : ∀ {u v e}, v.Within → p.Faults v e → p.Faults (v.shift u) e

/-- What the parser yields is further to the right than where it began. -/
def Consumes (p : Parser α) : Prop :=
  ∀ v a w, v.Within → p.Yields v a w → v.pos < w.pos

theorem Local.run_shift (h : p.Local) {v : View} (hv : v.Within) (u : Array Char) :
    (p.run (v.shift u)).ending = (p.run v).ending.map (Outcome.shift u) := by
  rcases p.ends v with ⟨a, w, hy⟩ | ⟨w, hf⟩ | ⟨e, hf⟩
  · rw [hy, h.yields hv hy]
    rfl
  · rw [hf, h.fails hv hf]
    rfl
  · rw [hf, h.faults hv hf]
    rfl

theorem Consumes.advances (h : p.Consumes) (hk : p.Keeps) : p.Advances := by
  intro v a w hv hy
  obtain ⟨cs, hs⟩ := hk.forward v a w hv hy
  refine ⟨cs, ?_, hs⟩
  rintro rfl
  obtain ⟨-, rfl⟩ := View.spans_nil.1 hs
  exact Int.lt_irrefl _ (h _ _ _ hv hy)

theorem Advances.consumes (h : p.Advances) : p.Consumes := by
  intro v a w hv hy
  obtain ⟨cs, hne, hs⟩ := h v a w hv hy
  have hl := List.length_pos_iff.2 hne
  rw [hs.next, View.advance_pos]
  omega

theorem local_endless : (endless : Parser α).Local where
  yields _ hy := by simp [Yields, endless, Run.fault] at hy
  fails _ hf := by simp [Fails, endless, Run.fault] at hf
  faults _ hf := hf

theorem local_literal (s : String) : (literal s).Local where
  yields hv hy := (literal_yields (View.shift_within _ hv)).2 (((literal_yields hv).1 hy).shift _)
  fails hv hf := by
    obtain ⟨rfl, hn⟩ := (literal_fails hv).1 hf
    exact (literal_fails (View.shift_within _ hv)).2 ⟨rfl, by rwa [View.rest_shift _ hv]⟩
  faults _ hf := (literal_not_faults hf).elim

theorem local_anyChar : anyChar.Local where
  yields hv hy := (anyChar_yields (View.shift_within _ hv)).2 (((anyChar_yields hv).1 hy).shift _)
  fails hv hf := by
    obtain ⟨rfl, hn⟩ := (anyChar_fails hv).1 hf
    exact (anyChar_fails (View.shift_within _ hv)).2 ⟨rfl, by rwa [View.rest_shift _ hv]⟩
  faults hv hf := (anyChar_not_faults hv hf).elim

theorem Local.pair (hp : p.Local) (hk : p.Keeps) (hq : q.Local) : (p.pair q).Local where
  yields hv hy := by
    obtain ⟨x, hx, hy⟩ := pair_yields.1 hy
    exact pair_yields.2 ⟨_, hp.yields hv hx, hq.yields ((hk.yields hv hx).within hv) hy⟩
  fails hv hf := by
    rcases pair_fails.1 hf with hf | ⟨x, a, hx, hf⟩
    · exact pair_fails.2 (.inl (hp.fails hv hf))
    · exact pair_fails.2
        (.inr ⟨_, a, hp.yields hv hx, hq.fails ((hk.yields hv hx).within hv) hf⟩)
  faults hv hf := by
    rcases pair_faults.1 hf with hf | ⟨x, a, hx, hf⟩
    · exact pair_faults.2 (.inl (hp.faults hv hf))
    · exact pair_faults.2
        (.inr ⟨_, a, hp.yields hv hx, hq.faults ((hk.yields hv hx).within hv) hf⟩)

theorem Local.map (hp : p.Local) (f : α → β) : (p.map f).Local where
  yields hv hy := by
    obtain ⟨a, ha, hb⟩ := map_yields.1 hy
    exact map_yields.2 ⟨a, hp.yields hv ha, hb⟩
  fails hv hf := map_fails.2 (hp.fails hv (map_fails.1 hf))
  faults hv hf := map_faults.2 (hp.faults hv (map_faults.1 hf))

theorem Local.convert (hp : p.Local) (f : α → Except Fault β) : (p.convert f).Local where
  yields hv hy := by
    obtain ⟨a, ha, hb⟩ := convert_yields.1 hy
    exact convert_yields.2 ⟨a, hp.yields hv ha, hb⟩
  fails hv hf := convert_fails.2 (hp.fails hv (convert_fails.1 hf))
  faults hv hf := by
    rcases convert_faults.1 hf with hf | ⟨a, x, ha, hf⟩
    · exact convert_faults.2 (.inl (hp.faults hv hf))
    · exact convert_faults.2 (.inr ⟨a, _, hp.yields hv ha, hf⟩)

theorem Local.filter (hp : p.Local) (f : α → Bool) : (p.filter f).Local where
  yields hv hy := by
    obtain ⟨ha, hf⟩ := filter_yields.1 hy
    exact filter_yields.2 ⟨hp.yields hv ha, hf⟩
  fails hv hf := by
    rcases filter_fails.1 hf with hf | ⟨rfl, a, x, ha, hf⟩
    · exact filter_fails.2 (.inl (hp.fails hv hf))
    · exact filter_fails.2 (.inr ⟨rfl, a, _, hp.yields hv ha, hf⟩)
  faults hv hf := filter_faults.2 (hp.faults hv (filter_faults.1 hf))

theorem Repeats.shift {v w : View} {as : List α} (h : Repeats p v as w) (hp : p.Local)
    (hk : p.Keeps) (u : Array Char) (hv : v.Within) :
    Repeats p (v.shift u) as (w.shift u) := by
  induction h with
  | nil v => exact .nil _
  | cons hy _ ih => exact .cons (hp.yields hv hy) (ih ((hk.yields hv hy).within hv))

theorem Repeats.within {v w : View} {as : List α} (h : Repeats p v as w) (hp : p.Forward)
    (hv : v.Within) : w.Within := by
  obtain ⟨_, hs⟩ := h.spans hp hv
  exact hs.within_next

theorem Local.many (hp : p.Local) (hk : p.Keeps) (ha : p.Advances) : (many p).Local where
  yields hv hy := by
    obtain ⟨hr, x, hx⟩ := (many_yields ha hv).1 hy
    exact (many_yields ha (View.shift_within _ hv)).2
      ⟨hr.shift hp hk _ hv, _, hp.fails (hr.within ha.forward hv) hx⟩
  fails _ hf := (many_not_fails hf).elim
  faults hv hf := by
    obtain ⟨as, x, hr, hx⟩ := (many_faults ha hv).1 hf
    exact (many_faults ha (View.shift_within _ hv)).2
      ⟨as, _, hr.shift hp hk _ hv, hp.faults (hr.within ha.forward hv) hx⟩

theorem Local.either {κ : Type} {r : κ → Parser α} (ks : List κ) (h : ∀ k ∈ ks, (r k).Local) :
    (either (ks.map fun k _ => r k)).Local := by
  induction ks with
  | nil =>
    exact ⟨fun _ hy => (either_nil_not_yields hy).elim,
      fun _ hf => either_nil_fails.2 (congrArg _ (either_nil_fails.1 hf)),
      fun _ hf => (either_nil_not_faults hf).elim⟩
  | cons k ks ih =>
    have hk := h k (by simp)
    have ht := ih fun k' hm => h k' (by simp [hm])
    refine ⟨fun hv hy => ?_, fun hv hf => ?_, fun hv hf => ?_⟩
    · rcases either_cons_yields.1 hy with hy | ⟨⟨x, hx⟩, hy⟩
      · exact either_cons_yields.2 (.inl (hk.yields hv hy))
      · exact either_cons_yields.2 (.inr ⟨⟨_, hk.fails hv hx⟩, ht.yields hv hy⟩)
    · obtain ⟨⟨x, hx⟩, hf⟩ := either_cons_fails.1 hf
      exact either_cons_fails.2 ⟨⟨_, hk.fails hv hx⟩, ht.fails hv hf⟩
    · rcases either_cons_faults.1 hf with hf | ⟨⟨x, hx⟩, hf⟩
      · exact either_cons_faults.2 (.inl (hk.faults hv hf))
      · exact either_cons_faults.2 (.inr ⟨⟨_, hk.fails hv hx⟩, ht.faults hv hf⟩)

namespace Expr

variable {ι : Type} {τ : ι → Type} {rules : (i : ι) → Expr τ (τ i)}
  {refs : (i : ι) → Parser (τ i)}

/-- Leaves that stay within the text and do not care for what stands before the view make parsers
that do not care for it either. -/
theorem isLocal (e : Expr τ α) (hk : ∀ i, (refs i).Keeps) (hl : ∀ i, (refs i).Local)
    (he : e.Leaves fun p => p.Keeps ∧ p.Local) (hc : e.Repeated Consumes refs) :
    (e.parser refs).Local := by
  have hkeeps : ∀ {γ : Type} {p : Expr τ γ}, (p.Leaves fun p => p.Keeps ∧ p.Local) →
      (p.parser refs).Keeps :=
    fun {_ p} hp => p.keeps hk (hp.imp fun _ h => h.1)
  induction e with
  | leaf p => exact he.2
  | literal s => exact local_literal s
  | anyChar => exact local_anyChar
  | pair p q ihp ihq => exact (ihp he.1 hc.1).pair (hkeeps he.1) (ihq he.2 hc.2)
  | map p f ih => exact (ih he hc).map f
  | convert p f ih => exact (ih he hc).convert f
  | filter p f ih => exact (ih he hc).filter f
  | many p ih => exact (ih he hc.2).many (hkeeps he) (Consumes.advances hc.1 (hkeeps he))
  | either ks p ih => exact Local.either ks fun k hm => ih k (he k hm) (hc k hm)
  | ref i => exact hl i

theorem local_unroll (hr : ∀ i, (rules i).Leaves fun p => p.Keeps ∧ p.Local)
    (hc : ∀ depth i, (rules i).Repeated Consumes (unroll rules depth)) (depth : Nat) (i : ι) :
    (unroll rules depth i).Local := by
  induction depth generalizing i with
  | zero => exact local_endless
  | succ d ih =>
    exact (rules i).isLocal (keeps_unroll (fun j => (hr j).imp fun _ h => h.1) d) ih (hr i) (hc d i)

end Expr

end Parser

end PlainJson
