import PlainJson.Proofs.Parser.Expression

/-!
How deep references are followed. A run that is not cut short is the same if references are followed
deeper, so what a recursive parser does does not depend on a bound.
-/
set_option autoImplicit false

namespace PlainJson

namespace Run

variable {α β : Type}

/-- The run was not ended because it went on for too long. -/
def Whole (x : Run α) : Prop := x.ending ≠ .error .endless

theorem andThen_whole {x y : Run α} {f g : α → Run β} (hx : x.Whole → y = x)
    (hf : ∀ a, (f a).Whole → g a = f a) (h : (x.andThen f).Whole) :
    y.andThen g = x.andThen f := by
  rcases x with ⟨es, e | a⟩
  · have he : y = ⟨es, .error e⟩ := hx fun hh => h (congrArg Except.error (Except.error.inj hh))
    rw [he]
    rfl
  · have he : y = ⟨es, .ok a⟩ := hx fun h => by cases h
    have hg : g a = f a := hf a h
    rw [he]
    simp only [andThen, hg]

end Run

namespace Parser

variable {α β : Type} {p p' : Parser α} {q q' : Parser β}

/-- Wherever a run of `p` is not cut short, `p'` runs alike. -/
def Extends (p' p : Parser α) : Prop := ∀ v, (p.run v).Whole → p'.run v = p.run v

theorem Extends.refl (p : Parser α) : p.Extends p := fun _ _ => rfl

theorem Extends.pair (hp : p'.Extends p) (hq : q'.Extends q) :
    (p'.pair q').Extends (p.pair q) := by
  intro v h
  refine Run.andThen_whole (hp v) (fun o ho => ?_) h
  cases o with
  | failure w => rfl
  | success w a => exact Run.andThen_whole (hq w) (fun _ _ => rfl) ho

theorem Extends.map (hp : p'.Extends p) (f : α → β) : (p'.map f).Extends (p.map f) :=
  fun v => Run.andThen_whole (hp v) fun _ _ => rfl

theorem Extends.convert (hp : p'.Extends p) (f : α → Except Fault β) :
    (p'.convert f).Extends (p.convert f) :=
  fun v => Run.andThen_whole (hp v) fun _ _ => rfl

theorem Extends.filter (hp : p'.Extends p) (f : α → Bool) :
    (p'.filter f).Extends (p.filter f) :=
  fun v => Run.andThen_whole (hp v) fun _ _ => rfl

theorem repeatFrom_extends (hp : p'.Extends p) (steps : Nat) (es : List Event) (as : List α)
    (v : View) (h : (p.repeatFrom steps es as v).Whole) :
    p'.repeatFrom steps es as v = p.repeatFrom steps es as v := by
  induction steps generalizing es as v with
  | zero => rfl
  | succ k ih =>
    have hv : (p.run v).Whole := by
      intro he
      apply h
      unfold repeatFrom
      generalize p.run v = x at he
      obtain ⟨fs, _⟩ := x
      subst he
      rfl
    unfold repeatFrom at h ⊢
    rw [hp v hv]
    generalize p.run v = x at h ⊢
    rcases x with ⟨fs, f | ⟨w, a⟩ | w⟩
    · rfl
    · exact ih _ _ _ h
    · rfl

theorem Extends.many (hp : p'.Extends p) : (many p').Extends (many p) :=
  fun v => repeatFrom_extends hp v.reach [] [] v

theorem Extends.either {κ : Type} {r r' : κ → Parser α} (ks : List κ)
    (h : ∀ k, (r' k).Extends (r k)) :
    (either (ks.map fun k _ => r' k)).Extends (either (ks.map fun k _ => r k)) := by
  intro v
  simp only [Parser.either, eitherOf]
  induction ks with
  | nil => exact fun _ => rfl
  | cons k ks ih =>
    simp only [List.map_cons, firstOf, Run.done_andThen]
    refine Run.andThen_whole (h k v) fun o ho => ?_
    cases o with
    | success w a => rfl
    | failure w => exact ih ho

namespace Expr

variable {ι : Type} {τ : ι → Type} {refs refs' : (i : ι) → Parser (τ i)}

theorem parser_extends (e : Expr τ α) (h : ∀ i, (refs' i).Extends (refs i)) :
    (e.parser refs').Extends (e.parser refs) := by
  induction e with
  | leaf | literal | anyChar => exact Extends.refl _
  | pair p q ihp ihq => exact ihp.pair ihq
  | map p f ih => exact ih.map f
  | convert p f ih => exact ih.convert f
  | filter p f ih => exact ih.filter f
  | many p ih => exact ih.many
  | either ks p ih => exact Extends.either ks ih
  | ref i => exact h i

theorem unroll_extends (rules : (i : ι) → Expr τ (τ i)) {d d' : Nat} (h : d ≤ d') (i : ι) :
    (unroll rules d' i).Extends (unroll rules d i) := by
  induction d generalizing d' i with
  | zero =>
    intro v hv
    exact (hv rfl).elim
  | succ d ih =>
    obtain ⟨d', rfl⟩ := Nat.exists_eq_add_of_le' h
    exact (rules i).parser_extends (ih (Nat.le_add_left d d'))

end Expr

end Parser

end PlainJson
