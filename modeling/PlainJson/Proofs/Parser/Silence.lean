import PlainJson.Proofs.Parser.Expression

/-!
Runs that record nothing. If no part records an event, neither does the whole, and all there is to a
run is how it ends. So alternatives of which at most one does not fail can be tried in any order.
-/
set_option autoImplicit false

namespace PlainJson

theorem Run.events_andThen {α β : Type} {x : Run α} {f : α → Run β} (hx : x.events = [])
    (hf : ∀ a, (f a).events = []) : (x.andThen f).events = [] := by
  rcases x with ⟨es, e | a⟩
  · exact hx
  · simp only [andThen, after, hf a, List.append_nil]
    exact hx

namespace Parser

variable {α β : Type} {p : Parser α} {q : Parser β}

def Silent (p : Parser α) : Prop := ∀ v, (p.run v).events = []

theorem Silent.run_of_yields (hp : p.Silent) {v w : View} {a : α} (h : p.Yields v a w) :
    p.run v = .done (.success w a) :=
  Run.ext (hp v) h

theorem Silent.run_of_fails (hp : p.Silent) {v w : View} (h : p.Fails v w) :
    p.run v = .done (.failure w) :=
  Run.ext (hp v) h

theorem silent_literal (s : String) : (literal s).Silent := by
  intro v
  simp only [literal]
  split
  · rfl
  · rfl

theorem silent_anyChar : anyChar.Silent := by
  intro v
  simp only [anyChar]
  split
  · rfl
  · rfl
  · split
    · rfl
    · rfl

theorem Silent.pair (hp : p.Silent) (hq : q.Silent) : (p.pair q).Silent := by
  intro v
  refine Run.events_andThen (hp v) fun o => ?_
  cases o with
  | failure w => rfl
  | success w a => exact Run.events_andThen (hq w) fun o => by cases o <;> rfl

theorem Silent.map (hp : p.Silent) (f : α → β) : (p.map f).Silent :=
  fun v => Run.events_andThen (hp v) fun _ => rfl

theorem Silent.convert (hp : p.Silent) (f : α → Except Fault β) : (p.convert f).Silent := by
  intro v
  refine Run.events_andThen (hp v) fun o => ?_
  cases o with
  | failure w => rfl
  | success w a => exact Run.events_andThen rfl fun _ => rfl

theorem Silent.filter (hp : p.Silent) (f : α → Bool) : (p.filter f).Silent :=
  fun v => Run.events_andThen (hp v) fun o => by cases o <;> rfl

theorem Silent.left (hp : p.Silent) (hq : q.Silent) : (p.left q).Silent := (hp.pair hq).map _

theorem Silent.right (hp : p.Silent) (hq : q.Silent) : (p.right q).Silent := (hp.pair hq).map _

theorem repeatFrom_silent (hp : p.Silent) (steps : Nat) (as : List α) (v : View) :
    (p.repeatFrom steps [] as v).events = [] := by
  induction steps generalizing as v with
  | zero => rfl
  | succ k ih =>
    have hv := hp v
    unfold repeatFrom
    generalize p.run v = x at hv
    obtain ⟨fs, e⟩ := x
    obtain rfl : fs = [] := hv
    rcases e with f | ⟨w, a⟩ | w
    · rfl
    · exact ih (a :: as) w
    · rfl

theorem Silent.many (hp : p.Silent) : (many p).Silent :=
  fun v => repeatFrom_silent hp v.reach [] v

theorem Silent.either {κ : Type} {r : κ → Parser α} (ks : List κ) (h : ∀ k ∈ ks, (r k).Silent) :
    (either (ks.map fun k _ => r k)).Silent := by
  intro v
  induction ks with
  | nil => rfl
  | cons k ks ih =>
    refine Run.events_andThen (h k (by simp) v) fun o => ?_
    cases o with
    | success w a => rfl
    | failure w => exact ih fun k' hk => h k' (by simp [hk])

theorem silent_stretch (f : Char → Bool) : (many (anyChar.filter f)).Silent :=
  (silent_anyChar.filter f).many

theorem silent_stretch1 (f : Char → Bool) : (many1 (anyChar.filter f)).Silent :=
  ((silent_anyChar.filter f).pair (silent_stretch f)).map _

theorem silent_blanks : (many blank).Silent := silent_stretch _

theorem Silent.wrapBlank (hp : p.Silent) : (wrapBlank p).Silent :=
  silent_blanks.right (hp.left silent_blanks)

theorem Expr.silent {ι : Type} {τ : ι → Type} {refs : (i : ι) → Parser (τ i)} (e : Expr τ α)
    (hr : ∀ i, (refs i).Silent) (he : e.Leaves Silent) : (e.parser refs).Silent := by
  induction e with
  | leaf p => exact he
  | literal s => exact silent_literal s
  | anyChar => exact silent_anyChar
  | pair p q ihp ihq => exact (ihp he.1).pair (ihq he.2)
  | map p f ih => exact (ih he).map f
  | convert p f ih => exact (ih he).convert f
  | filter p f ih => exact (ih he).filter f
  | many p ih => exact (ih he).many
  | either ks p ih => exact Silent.either ks fun k hk => ih k (he k hk)
  | ref i => exact hr i

/-- Where at most one alternative does not fail, the order in which they are tried does not show. -/
theorem either_perm {κ : Type} {r : κ → Parser α} {ks ks' : List κ} {v : View}
    (h : ks.Perm ks') (hx : Exclusive r v) (hs : ∀ k, (r k).Silent) :
    (Parser.either (ks.map fun k _ => r k)).run v =
      (Parser.either (ks'.map fun k _ => r k)).run v := by
  have he : ∀ ls : List κ, ((Parser.either (ls.map fun k _ => r k)).run v).events = [] :=
    fun ls => Silent.either ls (fun k _ => hs k) v
  refine Run.ext ((he ks).trans (he ks').symm) ?_
  rcases (Parser.either (ks.map fun k _ => r k)).ends v with ⟨a, w, hy⟩ | ⟨w, hf⟩ | ⟨e, hf⟩
  · obtain ⟨k, hk, hky⟩ := (either_yields hx ks).1 hy
    have hy' := (either_yields hx ks').2 ⟨k, h.mem_iff.1 hk, hky⟩
    exact Eq.trans hy (Eq.symm hy')
  · have hf' : (Parser.either (ks'.map fun k _ => r k)).Fails v w := by
      obtain ⟨rfl, hall⟩ := either_fails.1 hf
      exact either_fails.2 ⟨rfl, fun b hb => hall b ((h.map _).mem_iff.2 hb)⟩
    exact Eq.trans hf (Eq.symm hf')
  · obtain ⟨k, hk, hkf⟩ := (either_faults hx ks).1 hf
    have hf' := (either_faults hx ks').2 ⟨k, h.mem_iff.1 hk, hkf⟩
    exact Eq.trans hf (Eq.symm hf')

end Parser

end PlainJson
