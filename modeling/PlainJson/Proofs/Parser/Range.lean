import PlainJson.Proofs.Parser.Agreement
import PlainJson.Proofs.Parser.Depth
import PlainJson.Proofs.Parser.Scanning

/-!
Where a run can get to. Begun within a text, a parser ends within the same text and not before
where it began, be it with a value or by failing, and on the way no part of it is put anywhere else.
So the length of a view is always there to be asked for, and its next character too unless nothing
is ahead.
-/
set_option autoImplicit false

namespace PlainJson

namespace View

variable {v w u : View} {cs : List Char}

/-- In the same text, `w` is not before `v` and not beyond the end. -/
def Reaches (v w : View) : Prop := w.text = v.text ∧ v.pos ≤ w.pos ∧ w.pos ≤ w.text.size

instance (v w : View) : Decidable (v.Reaches w) :=
  inferInstanceAs (Decidable (_ ∧ _ ∧ _))

theorem Reaches.trans (h : v.Reaches w) (h' : w.Reaches u) : v.Reaches u :=
  ⟨h'.1.trans h.1, Int.le_trans h.2.1 h'.2.1, h'.2.2⟩

theorem reaches_refl (h : v.Within) : v.Reaches v := ⟨rfl, Int.le_refl _, h.2⟩

theorem Reaches.within (h : v.Reaches w) (hv : v.Within) : w.Within :=
  ⟨Int.le_trans hv.1 h.2.1, h.2.2⟩

theorem Spans.reaches (h : v.Spans cs w) : v.Reaches w := by
  have hw := h.within_next
  obtain ⟨-, rfl, -⟩ := h
  refine ⟨rfl, ?_, hw.2⟩
  rw [advance_pos]
  omega

theorem Reaches.exists_spans (h : v.Reaches w) (hv : v.Within) : ∃ cs, v.Spans cs w := by
  obtain ⟨ht, hp, hs⟩ := h
  have hn : (w.pos - v.pos).toNat ≤ v.rest.length := by
    rw [length_rest hv, room, ← ht]
    omega
  have hs := spans_of_rest hv (List.take_append_drop (w.pos - v.pos).toNat v.rest).symm
  rw [List.length_take, Nat.min_eq_left hn] at hs
  have hw : v.advance (w.pos - v.pos).toNat = w := by
    cases w
    simp only [advance, mk.injEq] at *
    exact ⟨ht.symm, by omega⟩
  exact ⟨_, hw ▸ hs⟩

theorem reaches_onward (v : View) : Onward v.Reaches := fun _ _ _ h hs => h.trans hs.reaches

end View

namespace Parser

variable {α β : Type} {p : Parser α} {q : Parser β}

/-- Begun within a text, the parser ends within it, at or behind where it began. -/
structure Keeps (p : Parser α) : Prop where
  yields : ∀ {v a w}, v.Within → p.Yields v a w → v.Reaches w
  fails : ∀ {v w}, v.Within → p.Fails v w → v.Reaches w

theorem Keeps.forward (h : p.Keeps) : p.Forward :=
  fun _ _ _ hv hy => (h.yields hv hy).exists_spans hv

theorem Forward.reaches (h : p.Forward) {v w : View} {a : α} (hv : v.Within)
    (hy : p.Yields v a w) : v.Reaches w := by
  obtain ⟨_, hs⟩ := h v a w hv hy
  exact hs.reaches

theorem keeps_literal (s : String) : (literal s).Keeps where
  yields hv hy := (literal_forward s).reaches hv hy
  fails hv hf := by
    obtain ⟨rfl, -⟩ := (literal_fails hv).1 hf
    exact View.reaches_refl hv

theorem keeps_anyChar : anyChar.Keeps where
  yields hv hy := anyChar_advances.forward.reaches hv hy
  fails hv hf := by
    obtain ⟨rfl, -⟩ := (anyChar_fails hv).1 hf
    exact View.reaches_refl hv

theorem keeps_endless : (endless : Parser α).Keeps where
  yields _ hy := by simp [Yields, endless, Run.fault] at hy
  fails _ hf := by simp [Fails, endless, Run.fault] at hf

theorem Keeps.pair (hp : p.Keeps) (hq : q.Keeps) : (p.pair q).Keeps where
  yields hv hy := (hp.forward.pair hq.forward).reaches hv hy
  fails hv hf := by
    rcases pair_fails.1 hf with hf | ⟨u, a, hy, hf⟩
    · exact hp.fails hv hf
    · have hu := hp.yields hv hy
      exact hu.trans (hq.fails (hu.within hv) hf)

theorem Keeps.map (hp : p.Keeps) (f : α → β) : (p.map f).Keeps where
  yields hv hy := (hp.forward.map f).reaches hv hy
  fails hv hf := hp.fails hv (map_fails.1 hf)

theorem Keeps.convert (hp : p.Keeps) (f : α → Except Fault β) : (p.convert f).Keeps where
  yields hv hy := by
    obtain ⟨a, ha, -⟩ := convert_yields.1 hy
    exact hp.yields hv ha
  fails hv hf := hp.fails hv (convert_fails.1 hf)

theorem Keeps.filter (hp : p.Keeps) (f : α → Bool) : (p.filter f).Keeps where
  yields hv hy := hp.yields hv (filter_yields.1 hy).1
  fails hv hf := by
    rcases filter_fails.1 hf with hf | ⟨rfl, -⟩
    · exact hp.fails hv hf
    · exact View.reaches_refl hv

/-- A repetition ends at the last view it came to; the failure there is forgotten. -/
theorem Keeps.many (hp : p.Keeps) : (many p).Keeps where
  yields hv hy := (many_forward hp.forward).reaches hv hy
  fails _ hf := (many_not_fails hf).elim

theorem Keeps.either {κ : Type} {r : κ → Parser α} (ks : List κ) (h : ∀ k ∈ ks, (r k).Keeps) :
    (either (ks.map fun k _ => r k)).Keeps where
  yields hv hy := by
    induction ks with
    | nil => exact (either_nil_not_yields hy).elim
    | cons k ks ih =>
      rcases either_cons_yields.1 hy with hy | ⟨-, hy⟩
      · exact (h k (by simp)).yields hv hy
      · exact ih (fun k' hk => h k' (by simp [hk])) hy
  fails hv hf := by
    obtain ⟨rfl, -⟩ := either_fails.1 hf
    exact View.reaches_refl hv

section
variable {S : View → Prop} [DecidablePred S] {p p' : Parser α}

theorem AgreeOn.guarded (h : AgreeOn S p p') (alarm : Fault) :
    AgreeOn S p (p'.guarded S alarm) := by
  intro v hv hn
  simp only [Parser.guarded, hn, if_true, h v hv hn]

end

namespace Expr

variable {ι : Type} {τ : ι → Type} {rules : (i : ι) → Expr τ (τ i)}
  {refs refs' : (i : ι) → Parser (τ i)}

theorem keeps (e : Expr τ α) (hr : ∀ i, (refs i).Keeps) (he : e.Leaves Keeps) :
    (e.parser refs).Keeps := by
  induction e with
  | leaf p => exact he
  | literal s => exact keeps_literal s
  | anyChar => exact keeps_anyChar
  | pair p q ihp ihq => exact (ihp he.1).pair (ihq he.2)
  | map p f ih => exact (ih he).map f
  | convert p f ih => exact (ih he).convert f
  | filter p f ih => exact (ih he).filter f
  | many p ih => exact (ih he).many
  | either ks p ih => exact Keeps.either ks fun k hk => ih k (he k hk)
  | ref i => exact hr i

theorem keeps_unroll (hr : ∀ i, (rules i).Leaves Keeps) (depth : Nat) (i : ι) :
    (unroll rules depth i).Keeps := by
  induction depth generalizing i with
  | zero => exact keeps_endless
  | succ d ih => exact (rules i).keeps ih (hr i)

section
variable {S : View → Prop} [DecidablePred S] (alarm : Fault)

/-- Guards around all the parts are not noticed if they let pass, with a view, those ahead of it. -/
theorem agree_watched (hS : View.Onward S) (e : Expr τ α) (hk : ∀ i, (refs i).Keeps)
    (he : e.Leaves Keeps) (hr : ∀ i, AgreeOn S (refs i) (refs' i)) :
    AgreeOn S (e.parser refs) (e.watched S alarm refs') := by
  induction e with
  | leaf p => exact (AgreeOn.refl S p).guarded alarm
  | literal s => exact (AgreeOn.refl S _).guarded alarm
  | anyChar => exact (AgreeOn.refl S _).guarded alarm
  | pair p q ihp ihq =>
    exact ((ihp he.1).pair hS (p.keeps hk he.1).forward (ihq he.2)).guarded alarm
  | map p f ih => exact ((ih he).map f).guarded alarm
  | convert p f ih => exact ((ih he).convert f).guarded alarm
  | filter p f ih => exact ((ih he).filter f).guarded alarm
  | many p ih => exact ((ih he).many hS (p.keeps hk he).forward).guarded alarm
  | either ks p ih => exact (AgreeOn.either ks fun k hm => ih k (he k hm)).guarded alarm
  | ref i => exact (hr i).guarded alarm

theorem agree_unrollWatched (hS : View.Onward S) (hr : ∀ i, (rules i).Leaves Keeps) (depth : Nat)
    (i : ι) : AgreeOn S (unroll rules depth i) (unrollWatched S alarm rules depth i) := by
  induction depth generalizing i with
  | zero => exact AgreeOn.refl S _
  | succ d ih => exact agree_watched alarm hS (rules i) (keeps_unroll hr d) (hr i) ih

end

/-- A run that begins within a text and ends with a result has not left the text and has not gone
back, if that is so for the leaves; and following references deeper does not change such a run. On
the way no part is put anywhere else: guards around all the parts that would end the run there, by
whichever fault, make no difference. Where the parts are put, the length can be asked for, and the
next character if there is one. -/
theorem run_reaches (rules : (i : ι) → Expr τ (τ i)) (e : Expr τ α)
    (hr : ∀ i, (rules i).Leaves Keeps) (he : e.Leaves Keeps) (depth : Nat) (v : View)
    (hv : v.Within) :
    (∀ o, ((e.parser (unroll rules depth)).run v).ending = .ok o → v.Reaches o.remaining ∧
      ∀ deeper, depth ≤ deeper →
        (e.parser (unroll rules deeper)).run v = (e.parser (unroll rules depth)).run v) ∧
    (∀ alarm, (e.watched v.Reaches alarm (unrollWatched v.Reaches alarm rules depth)).run v =
      (e.parser (unroll rules depth)).run v) ∧
    ∀ u, v.Reaches u → u.length = .ok u.rest.length ∧ ∀ c t, u.rest = c :: t → u.peek = .ok c := by
  have hk := e.keeps (keeps_unroll hr depth) he
  refine ⟨fun o ho => ⟨?_, fun deeper hd => ?_⟩, fun alarm => ?_, fun u hu => ⟨?_, fun c t => ?_⟩⟩
  · cases o with
    | success w a => exact hk.yields hv ho
    | failure w => exact hk.fails hv ho
  · have hw : ((e.parser (unroll rules depth)).run v).Whole := by
      intro hn
      rw [ho] at hn
      cases hn
    exact e.parser_extends (unroll_extends rules hd) v hw
  · have ha := agree_watched alarm (View.reaches_onward v) e (keeps_unroll hr depth) he
      (agree_unrollWatched alarm (View.reaches_onward v) hr depth)
    exact (ha v hv (View.reaches_refl hv)).symm
  · exact View.length_eq (hu.within hv)
  · exact View.peek_eq (hu.within hv) c t

/-- How many parentheses there are around a character. -/
def around : Unit → Expr (fun _ : Unit => Nat) Nat := fun _ =>
  .either [true, false] fun
    | true => ((Expr.ref ()).map Nat.succ).wrap "(" ")"
    | false => (Expr.leaf Parser.anyChar).map fun _ => 0

theorem run_reaches_around :
    (∀ i, (around i).Leaves Keeps) ∧ (View.ofString "_((x))" 1).Within ∧
      (((around ()).parser (unroll around 3)).run (View.ofString "_((x))" 1)).ending =
        .ok (.success (View.ofString "_((x))" 6) 2) ∧
      (View.ofString "_((x))" 1).Reaches (View.ofString "_((x))" 6) := by
  have hr : ∀ i, (around i).Leaves Keeps := by
    rintro i (_ | _) -
    · exact keeps_anyChar
    · exact ⟨trivial, trivial, trivial⟩
  have hv : (View.ofString "_((x))" 1).Within := ⟨by decide, by decide⟩
  have ho : (((around ()).parser (unroll around 3)).run (View.ofString "_((x))" 1)).ending =
      .ok (.success (View.ofString "_((x))" 6) 2) := rfl
  exact ⟨hr, hv, ho, ((run_reaches around (around ()) hr (hr ()) 3 _ hv).1 _ ho).1⟩

end Expr

end Parser

end PlainJson
