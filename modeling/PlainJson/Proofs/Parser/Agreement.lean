import PlainJson.Proofs.Parser.Repetition

/-!
Parsers that run alike on some of the views. Putting such parsers together in the same way gives
parsers that run alike again, if with a view those ahead of it are among the views. Behind a parser
that goes over a character the views may be others, with less ahead.
-/
set_option autoImplicit false

namespace PlainJson

theorem Run.andThen_congr {α β : Type} {x : Run α} {f g : α → Run β}
    (h : ∀ a, x.ending = .ok a → f a = g a) : x.andThen f = x.andThen g := by
  cases x with
  | mk es e =>
    cases e with
    | error e => rfl
    | ok a => simp [andThen, h a rfl]

namespace View

/-- With a view, `S` holds of those ahead of it. -/
def Onward (S : View → Prop) : Prop := ∀ v cs w, S v → v.Spans cs w → S w

/-- At least one character behind a view of `S`, the views are in `T`. -/
def Leads (S T : View → Prop) : Prop := ∀ v cs w, S v → cs ≠ [] → v.Spans cs w → T w

/-- Fewer than `n` characters are ahead. -/
def Below (n : Nat) (v : View) : Prop := v.room < n

theorem below_onward (n : Nat) : Onward (Below n) := by
  intro v cs w hv hs
  have hr := hs.room_eq
  simp only [Below] at *
  omega

theorem below_leads (n : Nat) : Leads (Below (n + 1)) (Below n) := by
  intro v cs w hv hn hs
  have hr := hs.room_lt hn
  simp only [Below] at *
  omega

end View

namespace Parser

variable {α β : Type} {p p' : Parser α} {q q' : Parser β} {S T : View → Prop}

/-- The two parsers run alike on the views of `S`. -/
def AgreeOn (S : View → Prop) (p q : Parser α) : Prop :=
  ∀ v : View, v.Within → S v → p.run v = q.run v

theorem AgreeOn.refl (S : View → Prop) (p : Parser α) : AgreeOn S p p := fun _ _ _ => rfl

theorem AgreeOn.trans {p'' : Parser α} (h : AgreeOn S p p') (h' : AgreeOn S p' p'') :
    AgreeOn S p p'' :=
  fun v hv hn => (h v hv hn).trans (h' v hv hn)

theorem AgreeOn.pair (hS : View.Onward S) (hf : p.Forward) (hp : AgreeOn S p p')
    (hq : AgreeOn S q q') : AgreeOn S (p.pair q) (p'.pair q') := by
  intro v hv hn
  simp only [Parser.pair, ← hp v hv hn]
  apply Run.andThen_congr
  intro o ho
  cases o with
  | failure w => rfl
  | success w a =>
    obtain ⟨cs, hs⟩ := hf v a w hv ho
    simp only [hq w hs.within_next (hS v cs w hn hs)]

theorem AgreeOn.pair_advances (hST : View.Leads S T) (ha : p.Advances) (hq : AgreeOn T q q') :
    AgreeOn S (p.pair q) (p.pair q') := by
  intro v hv hn
  simp only [Parser.pair]
  apply Run.andThen_congr
  intro o ho
  cases o with
  | failure w => rfl
  | success w a =>
    obtain ⟨cs, hne, hs⟩ := ha v a w hv ho
    simp only [hq w hs.within_next (hST v cs w hn hne hs)]

theorem AgreeOn.map (hp : AgreeOn S p p') (f : α → β) : AgreeOn S (p.map f) (p'.map f) := by
  intro v hv hn
  simp only [Parser.map, hp v hv hn]

theorem AgreeOn.convert (hp : AgreeOn S p p') (f : α → Except Fault β) :
    AgreeOn S (p.convert f) (p'.convert f) := by
  intro v hv hn
  simp only [Parser.convert, hp v hv hn]

theorem AgreeOn.filter (hp : AgreeOn S p p') (f : α → Bool) :
    AgreeOn S (p.filter f) (p'.filter f) := by
  intro v hv hn
  simp only [Parser.filter, hp v hv hn]

theorem AgreeOn.left (hS : View.Onward S) (hf : p.Forward) (hp : AgreeOn S p p')
    (hq : AgreeOn S q q') : AgreeOn S (p.left q) (p'.left q') :=
  (hp.pair hS hf hq).map _

theorem AgreeOn.right (hS : View.Onward S) (hf : p.Forward) (hp : AgreeOn S p p')
    (hq : AgreeOn S q q') : AgreeOn S (p.right q) (p'.right q') :=
  (hp.pair hS hf hq).map _

theorem AgreeOn.right_advances (hST : View.Leads S T) (ha : p.Advances) (hq : AgreeOn T q q') :
    AgreeOn S (p.right q) (p.right q') :=
  (AgreeOn.pair_advances hST ha hq).map _

theorem repeatFrom_agree (hS : View.Onward S) (hf : p.Forward) (hp : AgreeOn S p p') (steps : Nat)
    (es : List Event) (as : List α) (v : View) (hv : v.Within) (hn : S v) :
    p.repeatFrom steps es as v = p'.repeatFrom steps es as v := by
  induction steps generalizing es as v with
  | zero => rfl
  | succ k ih =>
    simp only [repeatFrom, ← hp v hv hn]
    rcases hr : p.run v with ⟨fs, f | ⟨w, a⟩ | w⟩
    · rfl
    · obtain ⟨cs, hs⟩ := hf v a w hv (by simp [Yields, hr])
      exact ih (es ++ fs) (a :: as) w hs.within_next (hS v cs w hn hs)
    · rfl

theorem AgreeOn.many (hS : View.Onward S) (hf : p.Forward) (hp : AgreeOn S p p') :
    AgreeOn S (many p) (many p') :=
  fun v hv hn => repeatFrom_agree hS hf hp v.reach [] [] v hv hn

theorem AgreeOn.separateBy (hS : View.Onward S) (hf : p.Forward) (hp : AgreeOn S p p')
    (sep : String) (hs : (literal sep).Forward) :
    AgreeOn S (separateBy p sep) (separateBy p' sep) := by
  have hl := AgreeOn.right hS hs (AgreeOn.refl S (literal sep)) hp
  exact (hp.pair hS hf (hl.many hS (hs.right hf))).map _

theorem AgreeOn.either {κ : Type} {r r' : κ → Parser α} (ks : List κ)
    (h : ∀ k ∈ ks, AgreeOn S (r k) (r' k)) :
    AgreeOn S (either (ks.map fun k _ => r k)) (either (ks.map fun k _ => r' k)) := by
  intro v hv hn
  simp only [Parser.either, eitherOf]
  induction ks with
  | nil => rfl
  | cons k ks ih =>
    have ht := ih fun k' hk => h k' (by simp [hk])
    simp only [List.map_cons, firstOf, Run.done_andThen, h k (by simp) v hv hn]
    apply Run.andThen_congr
    intro o _
    cases o with
    | success w a => rfl
    | failure w => exact ht

end Parser

end PlainJson
