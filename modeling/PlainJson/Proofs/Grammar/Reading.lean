import PlainJson.Proofs.Grammar.Rules

/-!
Reading a value finds a written form of it, and the longest one: what it leaves begins neither with
white space nor with a digit that would make a number longer. Whatever is written is found, if what
follows does not lengthen it.
-/
set_option autoImplicit false

namespace PlainJson.Grammar

open PlainJson.Parser PlainJson.Text

/-- What the parser yields is a written form of the value. -/
def Reads {α : Type} (p : Parser α) (D : List Char → α → Prop) : Prop :=
  ∀ v a w, v.Within → p.Yields v a w → ∃ cs, v.Spans cs w ∧ D cs a

/-- What follows the characters `cs` does not lengthen them. -/
def Ends (cs t : List Char) : Prop :=
  ClearOf isBlank t ∧ ((∃ d ∈ cs.getLast?, d.isDigit = true) → ClearOf Char.isDigit t)

/-- A comma or a closing bracket follows. -/
def Follows (t : List Char) : Prop := ∃ c u, t = c :: u ∧ (c = ',' ∨ c = ']' ∨ c = '\x7d')

theorem Follows.ends {t : List Char} (h : Follows t) (cs : List Char) : Ends cs t := by
  obtain ⟨c, u, rfl, hc⟩ := h
  rcases hc with rfl | rfl | rfl
  · exact ⟨clearOf_cons.2 rfl, fun _ => clearOf_cons.2 rfl⟩
  · exact ⟨clearOf_cons.2 rfl, fun _ => clearOf_cons.2 rfl⟩
  · exact ⟨clearOf_cons.2 rfl, fun _ => clearOf_cons.2 rfl⟩

/-- The parser goes over these characters and yields this value, if a comma or a bracket follows. -/
def Completes {α : Type} (p : Parser α) (cs : List Char) (a : α) : Prop :=
  ∀ v w, v.Spans cs w → Follows w.rest → p.Yields v a w

theorem ends_nil (cs : List Char) : Ends cs [] := ⟨clearOf_nil, fun _ => clearOf_nil⟩

theorem ends_append_iff {cs t u : List Char} (hn : t ≠ []) : Ends cs (t ++ u) ↔ Ends cs t := by
  rw [Ends, Ends, clearOf_append hn, clearOf_append hn]

section
variable {α : Type} {p : Parser α} {D : List Char → α → Prop} {v w u : View} {cs : List Char}
  {a : α} {as : List α}

theorem Reads.forward (hr : Reads p D) : p.Forward := by
  intro v a w hv hy
  obtain ⟨cs, hs, -⟩ := hr v a w hv hy
  exact ⟨cs, hs⟩

theorem Reads.repeats (hr : Reads p D) (h : Repeats (behind "," p) u as w) (hs : v.Spans cs u)
    (ha : D cs a) : ∃ ds, v.Spans ds w ∧ Separated D ds (a :: as) := by
  induction h generalizing v cs a with
  | nil u => exact ⟨cs, hs, .one ha⟩
  | @cons u x w b bs hy _ ih =>
    obtain ⟨y, hc, hb⟩ := (behind_yields hs.within_next).1 hy
    obtain ⟨ds, ht, hd⟩ := hr y b x hc.within_next hb
    obtain ⟨es, hes, he⟩ := ih ht hd
    exact ⟨_, hs.trans (hc.trans hes), .more ha he⟩

theorem Reads.separateBy (hr : Reads p D) (hp : p.Advances) :
    Reads (separateBy p ",") (Separated D) := by
  intro v as w hv hy
  obtain ⟨a, bs, x, rfl, ha, hb, -⟩ := (separateBy_yields hp hv).1 hy
  obtain ⟨cs, hs, hd⟩ := hr v a x hv ha
  exact hr.repeats hb hs hd

theorem Reads.wrapBlank (hr : Reads p D) : Reads (wrapBlank p) (Padded D) := by
  intro v a w hv hy
  obtain ⟨l, x, y, r, hl, hbl, -, ha, hrs, hbr, -⟩ := (wrapBlank_yields hr.forward hv).1 hy
  obtain ⟨cs, hs, hd⟩ := hr x a y hl.within_next ha
  exact ⟨_, (hl.trans hs).trans hrs, .pad hbl hd hbr⟩

/-- Items that are found wherever a comma or a bracket follows are found one after another. -/
theorem separateBy_completes (hp : p.Advances)
    (h : Separated (Completes p) cs as) :
    ∀ v w, v.Spans cs w → Follows w.rest → ¬ [','] <+: w.rest →
      (separateBy p ",").Yields v as w := by
  induction h with
  | @one cs a ha =>
    intro v w hs hf hn
    refine (separateBy_yields hp hs.within).2 ⟨a, [], w, rfl, ha v w hs hf, .nil w, w, ?_⟩
    exact (behind_fails hs.within_next).2 (.inl ⟨rfl, hn⟩)
  | @more cs ds a as ha _ ih =>
    intro v w hs hf hn
    obtain ⟨x, hx, hs⟩ := hs.split
    obtain ⟨y, hc, hs⟩ := @View.Spans.split x w [','] ds hs
    have hfx : Follows x.rest := ⟨',', y.rest, hc.ahead, .inl rfl⟩
    obtain ⟨b, bs, z, rfl, hb, hr, he⟩ := (separateBy_yields hp hs.within).1 (ih y w hs hf hn)
    have hy : (behind "," p).Yields x b z := (behind_yields hc.within).2 ⟨y, hc, hb⟩
    exact (separateBy_yields hp hx.within).2 ⟨a, b :: bs, x, rfl, ha v x hx hfx, .cons hy hr, he⟩

end

section
variable {order : Order} {p : Parser Value} {D : List Char → Value → Prop} {v w : View}
  {x : Value} {e : Fault} {cs : List Char}

theorem reads_string : Reads string Quoted := fun _ _ _ hv hy => (string_yields hv).1 hy

theorem reads_member (hr : Reads p D) : Reads (member p) (Member D) := by
  intro v m w hv hy
  obtain ⟨y, hk, hx⟩ := pair_yields.1 hy
  obtain ⟨z, _, hk, hc⟩ := left_yields.1 hk
  obtain ⟨ks, hs, hq⟩ := reads_string.wrapBlank v _ z hv hk
  have hc := (literal_yields hs.within_next).1 hc
  obtain ⟨cs, ht, hd⟩ := hr y _ w hc.within_next hx
  exact ⟨_, hs.trans (hc.trans ht), .pair hq hd⟩

theorem reads_rule (order : Order) (hr : Reads p Derives) (hp : p.Advances) (k : Kind) :
    Reads (rule order p k) Bare := by
  intro v x w hv hy
  cases k with
  | null =>
    obtain ⟨hs, rfl⟩ := (null_yields hv).1 hy
    exact ⟨_, hs, .null⟩
  | bool =>
    obtain ⟨b, -, hs, rfl⟩ := (bool_yields hv).1 hy
    exact ⟨_, hs, .bool b⟩
  | string =>
    obtain ⟨s, hm, rfl⟩ := map_yields.1 hy
    obtain ⟨cs, hs, hq⟩ := (string_yields hv).1 hm
    exact ⟨cs, hs, .string hq⟩
  | number =>
    obtain ⟨n, hm, rfl⟩ := map_yields.1 hy
    obtain ⟨ds, hs, hne, hl, ha, -, rfl⟩ := (number_yields hv).1 hm
    exact ⟨ds, hs, .number hne hl ha⟩
  | array =>
    obtain ⟨xs, hm, rfl⟩ := map_yields.1 hy
    obtain ⟨y, z, ho, hi, hc⟩ := (wrap_yields (separateBy_advances hp).forward hv).1 hm
    obtain ⟨cs, hs, hi⟩ := hr.separateBy hp y xs z ho.within_next hi
    exact ⟨_, (ho.trans hs).trans hc, .array hi⟩
  | object =>
    have ha := member_advances hp.forward
    obtain ⟨table, hm, rfl⟩ := map_yields.1 hy
    obtain ⟨y, z, ho, ht, hc⟩ := (wrap_yields ((separateBy_advances ha).map _).forward hv).1 hm
    obtain ⟨ms, hi, rfl⟩ := map_yields.1 ht
    obtain ⟨cs, hs, hi⟩ := (reads_member hr).separateBy ha y ms z ho.within_next hi
    exact ⟨_, (ho.trans hs).trans hc, .object hi (keepsLast_entriesOf ms)⟩

theorem reads_body (order : Order) (hr : Reads p Derives) (hp : p.Advances) :
    Reads (body order p) Derives := by
  apply Reads.wrapBlank
  intro v x w hv hy
  rw [either_yields (rules_exclusive order hp.forward hv)] at hy
  obtain ⟨k, -, hy⟩ := hy
  exact reads_rule order hr hp k v x w hv hy

theorem reads_valueAt (order : Order) (depth : Nat) : Reads (valueAt order depth) Derives := by
  induction depth with
  | zero =>
    apply Reads.wrapBlank
    intro v x w _ hy
    simp [Yields, Run.fault] at hy
  | succ d ih => exact reads_body order ih (valueAt_advances order d)

theorem reads_valueIn (order : Order) : Reads (valueIn order) Derives := by
  intro v x w hv hy
  rw [Yields, valueIn_run_depth] at hy
  exact reads_valueAt order (v.room + 1) v x w hv hy

theorem value_advances : value.Advances := valueIn_advances .standard

theorem mem_standard (k : Kind) : k ∈ Order.standard.kinds := by cases k <;> decide

theorem value_yields (hv : v.Within) :
    value.Yields v x w ↔
      ∃ l y k z r, v.Spans l y ∧ AllOf isBlank l ∧ ClearOf isBlank y.rest ∧
        (rule .standard value k).Yields y x z ∧
        z.Spans r w ∧ AllOf isBlank r ∧ ClearOf isBlank w.rest := by
  have hf := (rules_advance .standard value_advances.forward).forward
  rw [Yields, value_run hv]
  refine (wrapBlank_yields hf hv).trans ⟨fun hh => ?_, fun hh => ?_⟩
  · obtain ⟨l, y, z, r, hl, hbl, hcl, hy, hr⟩ := hh
    rw [either_yields (rules_exclusive .standard value_advances.forward hl.within_next)] at hy
    obtain ⟨k, -, hy⟩ := hy
    exact ⟨l, y, k, z, r, hl, hbl, hcl, hy, hr⟩
  · obtain ⟨l, y, k, z, r, hl, hbl, hcl, hy, hr⟩ := hh
    refine ⟨l, y, z, r, hl, hbl, hcl, ?_, hr⟩
    rw [either_yields (rules_exclusive .standard value_advances.forward hl.within_next)]
    exact ⟨k, mem_standard k, hy⟩

theorem value_faults (hv : v.Within) :
    value.Faults v e ↔
      ∃ l y k, v.Spans l y ∧ AllOf isBlank l ∧ ClearOf isBlank y.rest ∧
        (rule .standard value k).Faults y e := by
  have hf := (rules_advance .standard value_advances.forward).forward
  rw [Faults, value_run hv]
  refine (wrapBlank_faults hf hv).trans ⟨fun hh => ?_, fun hh => ?_⟩
  · obtain ⟨l, y, hl, hbl, hcl, hy⟩ := hh
    rw [either_faults (rules_exclusive .standard value_advances.forward hl.within_next)] at hy
    obtain ⟨k, -, hy⟩ := hy
    exact ⟨l, y, k, hl, hbl, hcl, hy⟩
  · obtain ⟨l, y, k, hl, hbl, hcl, hy⟩ := hh
    refine ⟨l, y, hl, hbl, hcl, ?_⟩
    rw [either_faults (rules_exclusive .standard value_advances.forward hl.within_next)]
    exact ⟨k, mem_standard k, hy⟩

/-- Nothing is kept of how far the rules came: the failure is behind the white space at the front. -/
theorem value_fails (hv : v.Within) (h : value.Fails v w) :
    ∃ l, v.Spans l w ∧ AllOf isBlank l ∧ ClearOf isBlank w.rest := by
  rw [Fails, value_run hv] at h
  obtain ⟨l, y, hl, hbl, hcl, hy⟩ := (wrapBlank_fails hv).1 h
  obtain ⟨rfl, -⟩ := either_fails.1 hy
  exact ⟨l, hl, hbl, hcl⟩

end

section
variable {v w y z : View} {x : Value} {cs : List Char}

/-- What a bare value begins with is its kind. -/
theorem Bare.first (h : Bare cs x) : ∃ k c t, cs = c :: t ∧ Kind.opens k c = true := by
  cases h with
  | null => exact ⟨.null, 'n', "ull".toList, rfl, rfl⟩
  | bool b =>
    cases b
    · exact ⟨.bool, 'f', "alse".toList, rfl, rfl⟩
    · exact ⟨.bool, 't', "rue".toList, rfl, rfl⟩
  | string hq =>
    cases hq with
    | quoted => exact ⟨.string, '"', _, rfl, rfl⟩
  | number hne hl ha =>
    obtain ⟨c, t, rfl⟩ := List.exists_cons_of_ne_nil hne
    exact ⟨.number, c, t, rfl, (allOf_cons.1 ha).1⟩
  | array => exact ⟨.array, '[', _, rfl, rfl⟩
  | object => exact ⟨.object, '\x7b', _, rfl, rfl⟩

theorem not_isBlank_of_isDigit {c : Char} (h : c.isDigit = true) : isBlank c = false := by
  have hs : ∀ n : Fin 10, isBlank (Char.ofNat (n.val + 48)) = false := by decide
  have hb := Char.isDigit_iff_toNat.1 h
  have h₀ : '0'.toNat = 48 := rfl
  have h₉ : '9'.toNat = 57 := rfl
  have hc := hs ⟨c.toNat - 48, by omega⟩
  rwa [show c.toNat - 48 + 48 = c.toNat by omega, Char.ofNat_toNat] at hc

theorem not_isDigit_of_isBlank {c : Char} (h : isBlank c = true) : c.isDigit = false := by
  by_cases hd : c.isDigit = true
  · rw [not_isBlank_of_isDigit hd] at h
    cases h
  · simpa using hd

theorem Kind.not_isBlank_of_opens {k : Kind} {c : Char} (h : k.opens c = true) :
    isBlank c = false := by
  cases k with
  | number => exact not_isBlank_of_isDigit h
  | bool =>
    simp only [Kind.opens, Bool.or_eq_true, beq_iff_eq] at h
    rcases h with rfl | rfl
    · rfl
    · rfl
  | null | string | array | object =>
    simp only [Kind.opens, beq_iff_eq] at h
    subst h
    rfl

theorem Bare.clearOf_blank (h : Bare cs x) (t : List Char) : ClearOf isBlank (cs ++ t) := by
  obtain ⟨k, c, u, rfl, hc⟩ := h.first
  exact clearOf_cons.2 (Kind.not_isBlank_of_opens hc)

/-- Only numbers have a digit at their end. -/
theorem Bare.digits_of_last (h : Bare cs x) (hd : ∃ d ∈ cs.getLast?, d.isDigit = true) :
    AllOf Char.isDigit cs := by
  obtain ⟨d, hl, hd⟩ := hd
  cases h with
  | null =>
    obtain rfl : 'l' = d := by simpa using hl
    cases hd
  | bool b =>
    obtain rfl : 'e' = d := by cases b <;> simpa using hl
    cases hd
  | string hq =>
    cases hq with
    | quoted =>
      rw [List.getLast?_concat] at hl
      cases hl
      cases hd
  | number _ _ ha => exact ha
  | array =>
    rw [List.getLast?_concat] at hl
    cases hl
    cases hd
  | object =>
    rw [List.getLast?_concat] at hl
    cases hl
    cases hd

/-- White space at the end sets a value off from any digit. -/
theorem ends_append {l b r t : List Char} (h : Ends (l ++ b ++ r) t) (hr : AllOf isBlank r)
    (hb : ∃ d ∈ b.getLast?, d.isDigit = true) : ClearOf Char.isDigit (r ++ t) := by
  cases r with
  | nil =>
    obtain ⟨d, hl, hd⟩ := hb
    have hl' : b.getLast? = some d := hl
    exact h.2 ⟨d, by simp [hl'], hd⟩
  | cons c r => exact clearOf_cons.2 (not_isDigit_of_isBlank (allOf_cons.1 hr).1)

theorem last_digit_of_padded {l b r : List Char} (hb : Bare b x) (hr : AllOf isBlank r)
    (hd : ∃ d ∈ (l ++ b ++ r).getLast?, d.isDigit = true) :
    r = [] ∧ ∃ d ∈ b.getLast?, d.isDigit = true := by
  obtain ⟨d, hl, hd⟩ := hd
  cases List.eq_nil_or_concat r with
  | inl hn =>
    subst hn
    obtain ⟨_, c, t, rfl, -⟩ := hb.first
    refine ⟨rfl, d, ?_, hd⟩
    simpa using hl
  | inr hn =>
    obtain ⟨s, c, rfl⟩ := hn
    rw [List.concat_eq_append, ← List.append_assoc, List.getLast?_concat] at hl
    cases hl
    rw [not_isDigit_of_isBlank (hr d (by simp))] at hd
    cases hd

/-- One of the rules finds the value, written like this, unless a digit lengthens it. -/
def Found (cs : List Char) (x : Value) : Prop :=
  ∀ v w, v.Spans cs w →
    ((∃ d ∈ cs.getLast?, d.isDigit = true) → ClearOf Char.isDigit w.rest) →
      ∃ k, (rule .standard value k).Yields v x w

theorem padded_completes (h : Padded (fun bs x => Bare bs x ∧ Found bs x) cs x)
    (hs : v.Spans cs w) (he : Ends cs w.rest) : value.Yields v x w := by
  cases h with
  | @pad l b r _ hl hb hr =>
    obtain ⟨z, hz, hrs⟩ := hs.split
    obtain ⟨y, hy, hbs⟩ := hz.split
    have hd : (∃ d ∈ b.getLast?, d.isDigit = true) → ClearOf Char.isDigit z.rest := by
      intro hd
      rw [hrs.ahead]
      exact ends_append he hr hd
    obtain ⟨k, hk⟩ := hb.2 y z hbs hd
    have hc : ClearOf isBlank y.rest := by
      rw [hbs.ahead]
      exact hb.1.clearOf_blank _
    exact (value_yields hs.within).2 ⟨l, y, k, z, r, hy, hl, hc, hk, hrs, hr, he.1⟩

theorem padded_completes_before (h : Padded (fun bs x => Bare bs x ∧ Found bs x) cs x) :
    Completes value cs x :=
  fun _ _ hs hf => padded_completes h hs (hf.ends cs)

theorem key_completes {ks : List Char} {k : String} (hk : Padded Quoted ks k) (hs : v.Spans ks w)
    (hc : ClearOf isBlank w.rest) : (wrapBlank string).Yields v k w := by
  cases hk with
  | @pad l q r _ hl hq hr =>
    obtain ⟨z, hz, hrs⟩ := hs.split
    obtain ⟨y, hy, hqs⟩ := hz.split
    have hcy : ClearOf isBlank y.rest := by
      rw [hqs.ahead]
      cases hq with
      | quoted => exact clearOf_cons.2 rfl
    refine (wrapBlank_yields string_advances.forward hs.within).2
      ⟨l, y, z, r, hy, hl, hcy, ?_, hrs, hr, hc⟩
    exact (string_yields hqs.within).2 ⟨q, hqs, hq⟩

/-- A key with its white space and its colon. -/
theorem colon_completes {ks : List Char} {k : String} (hk : Padded Quoted ks k)
    (hs : v.Spans (ks ++ [':']) w) : ((wrapBlank string).left (literal ":")).Yields v k w := by
  obtain ⟨y, hy, hc⟩ := hs.split
  have hcy : (literal ":").Yields y () w := (literal_yields hc.within).2 hc
  have hky := key_completes hk hy (by rw [hc.ahead]; exact clearOf_cons.2 rfl)
  exact left_yields.2 ⟨y, (), hky, hcy⟩

theorem member_completes {m : String × Value} (h : Member (Completes value) cs m) :
    Completes (member value) cs m := by
  intro v w hs hf
  cases h with
  | @pair ks ds k x hk hx =>
    have hs' : v.Spans (ks ++ [':'] ++ ds) w := by simpa using hs
    obtain ⟨y, hy, hds⟩ := hs'.split
    exact pair_yields.2 ⟨y, colon_completes hk hy, hx y w hds hf⟩

theorem Bare.found (h : Bare cs x) : Found cs x := by
  have hf := value_advances.forward
  refine Bare.nested (P := Found) ?null ?bool ?string ?number ?array ?object h
  case null =>
    intro v w hs _
    exact ⟨.null, (null_yields hs.within).2 ⟨hs, rfl⟩⟩
  case bool =>
    intro b v w hs _
    exact ⟨.bool, (bool_yields hs.within).2 ⟨b, by cases b <;> decide, hs, rfl⟩⟩
  case string =>
    intro _ _ hq v w hs _
    exact ⟨.string, map_yields.2 ⟨_, (string_yields hs.within).2 ⟨_, hs, hq⟩, rfl⟩⟩
  case number =>
    intro ds hne hl ha v w hs hd
    have hlast : ∃ d ∈ ds.getLast?, d.isDigit = true :=
      ⟨ds.getLast hne, List.getLast?_eq_some_getLast hne, ha _ (List.getLast_mem hne)⟩
    refine ⟨.number, map_yields.2 ⟨_, ?_, rfl⟩⟩
    exact (number_yields hs.within).2 ⟨ds, hs, hne, hl, ha, hd hlast, rfl⟩
  case array =>
    intro cs xs hi v w hs _
    obtain ⟨z, hz, hc⟩ := hs.split
    obtain ⟨y, ho, hi'⟩ := @View.Spans.split v z ['['] cs hz
    have hfz : Follows z.rest := ⟨']', w.rest, hc.ahead, .inr (.inl rfl)⟩
    have hnz : ¬ [','] <+: z.rest := by simp [hc.ahead]
    have hp := hi.imp fun _ _ hp => padded_completes_before hp
    have hy := separateBy_completes value_advances hp y z hi' hfz hnz
    refine ⟨.array, map_yields.2 ⟨xs, ?_, rfl⟩⟩
    exact (wrap_yields (separateBy_advances value_advances).forward hs.within).2 ⟨y, z, ho, hy, hc⟩
  case object =>
    intro cs ms table hi hk v w hs _
    obtain ⟨z, hz, hc⟩ := hs.split
    obtain ⟨y, ho, hi'⟩ := @View.Spans.split v z ['\x7b'] cs hz
    have hfz : Follows z.rest := ⟨'\x7d', w.rest, hc.ahead, .inr (.inr rfl)⟩
    have hnz : ¬ [','] <+: z.rest := by simp [hc.ahead]
    have ha := member_advances hf
    have hm := hi.imp fun _ _ hm => member_completes (hm.imp fun _ _ hp => padded_completes_before hp)
    have hy := separateBy_completes ha hm y z hi' hfz hnz
    have ht := map_yields (f := entriesOf).2 ⟨ms, hy, rfl⟩
    refine ⟨.object, map_yields.2 ⟨_, ?_, congrArg Value.dict (keepsLast_iff.1 hk)⟩⟩
    exact (wrap_yields ((separateBy_advances ha).map _).forward hs.within).2 ⟨y, z, ho, ht, hc⟩

theorem value_completes (h : Derives cs x) (hs : v.Spans cs w) (he : Ends cs w.rest) :
    value.Yields v x w :=
  padded_completes (h.imp fun _ _ hb => ⟨hb, hb.found⟩) hs he

/-- What a value yields is exactly what is written, up to where nothing lengthens it. -/
theorem value_yields_iff (hv : v.Within) :
    value.Yields v x w ↔ ∃ cs, v.Spans cs w ∧ Derives cs x ∧ Ends cs w.rest := by
  refine ⟨fun hy => ?_, fun hh => ?_⟩
  · obtain ⟨l, y, k, z, r, hl, hbl, -, hk, hrs, hbr, hcw⟩ := (value_yields hv).1 hy
    have hr := reads_rule .standard (reads_valueIn .standard) value_advances k
    obtain ⟨b, hs, hb⟩ := hr y x z hl.within_next hk
    refine ⟨_, (hl.trans hs).trans hrs, .pad hbl hb hbr, hcw, fun hd => ?_⟩
    obtain ⟨hrn, hd⟩ := last_digit_of_padded hb hbr hd
    obtain rfl : w = z := (View.spans_nil.1 (hrn ▸ hrs)).2
    obtain ⟨c, t, hc, ho⟩ := opens_of_not_fails value_advances.forward hl.within_next hk.not_fails
    have hn : Kind.number = k := by
      refine Kind.opens_unique ?_ ho
      obtain ⟨_, d, u, rfl, -⟩ := hb.first
      rw [hs.ahead] at hc
      obtain ⟨rfl, -⟩ := List.cons.inj hc
      exact (allOf_cons.1 (hb.digits_of_last hd)).1
    subst hn
    obtain ⟨n, hm, -⟩ := map_yields.1 hk
    obtain ⟨_, _, _, _, _, hcd, -⟩ := (number_yields hl.within_next).1 hm
    exact hcd
  · obtain ⟨cs, hs, hd, he⟩ := hh
    exact value_completes hd hs he

/-- Values at the front of a text that are both followed by a comma, a bracket or nothing. -/
theorem derives_front {ds t u : List Char} {y : Value} (hx : Derives cs x) (hy : Derives ds y)
    (ht : Ends cs t) (hu : Ends ds u) (h : cs ++ t = ds ++ u) : cs = ds ∧ x = y := by
  obtain ⟨v, hv, hr⟩ := View.exists_view (cs ++ t)
  obtain ⟨w, hs, rfl⟩ := View.exists_spans hv hr
  obtain ⟨z, hs', rfl⟩ := View.exists_spans hv (hr.trans h)
  obtain ⟨he, rfl⟩ := (value_completes hx hs ht).unique (value_completes hy hs' hu)
  exact ⟨hs.unique hs', he⟩

/-- Keys with their colons at the front of a text. -/
theorem key_front {ks qs t u : List Char} {k q : String} (hk : Padded Quoted ks k)
    (hq : Padded Quoted qs q) (h : ks ++ ':' :: t = qs ++ ':' :: u) : ks = qs := by
  rw [List.append_cons ks ':' t, List.append_cons qs ':' u] at h
  obtain ⟨v, hv, hr⟩ := View.exists_view (ks ++ [':'] ++ t)
  obtain ⟨w, hs, -⟩ := View.exists_spans hv hr
  obtain ⟨z, hs', -⟩ := View.exists_spans hv (hr.trans h)
  obtain ⟨-, rfl⟩ := (colon_completes hk hs).unique (colon_completes hq hs')
  exact List.append_cancel_right (hs.unique hs')

end

end PlainJson.Grammar
