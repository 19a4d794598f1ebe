import PlainJson.Proofs.Grammar.Unfolding
import PlainJson.Proofs.Grammar.Derivation

/-!
The rules one by one. The first character tells which rule can read a value, so on every view at most
one of the rules does not fail at once.
-/
set_option autoImplicit false

namespace PlainJson

/-- The characters with which values of a kind begin. -/
def Kind.opens : Kind → Char → Bool
  | .null, c => c == 'n'
  | .bool, c => c == 't' || c == 'f'
  | .string, c => c == '"'
  | .number, c => c.isDigit
  | .array, c => c == '['
  | .object, c => c == '\x7b'

theorem Kind.opens_unique {k k' : Kind} {c : Char} (h : k.opens c = true)
    (h' : k'.opens c = true) : k = k' := by
  by_cases hd : c.isDigit = true
  · have hn : ∀ d : Char, d.isDigit = false → c ≠ d := by
      intro d hf he
      rw [← he, hd] at hf
      cases hf
    have h₁ := hn 'n' rfl
    have h₂ := hn 't' rfl
    have h₃ := hn 'f' rfl
    have h₄ := hn '"' rfl
    have h₅ := hn '[' rfl
    have h₆ := hn '\x7b' rfl
    cases k <;> cases k' <;> simp_all [Kind.opens]
  · cases k <;> cases k' <;> simp_all [Kind.opens]

namespace Grammar

open PlainJson.Parser PlainJson.Text

variable {order : Order} {p : Parser Value} {v w : View} {x : Value} {e : Fault}

theorem not_prefix_of_clearOf {f : Char → Bool} {c : Char} {s t : List Char} (hc : f c = true)
    (h : ClearOf f t) : ¬ c :: s <+: t := by
  intro hp
  obtain ⟨u, rfl⟩ := hp
  simp [hc] at h

theorem truths_exclusive (h : v.Within) : Exclusive truth v := by
  have hf : ∀ b, ¬ (if b then "true" else "false").toList <+: v.rest → (truth b).Fails v v :=
    fun b hb => map_fails.2 ((literal_fails h).2 ⟨rfl, hb⟩)
  have hc : ¬ "true".toList <+: v.rest ∨ ¬ "false".toList <+: v.rest := by
    by_cases ht : 't' ∈ v.rest.head?
    · refine .inr fun hp => ?_
      obtain ⟨s, hs⟩ := hp
      simp [← hs] at ht
    · refine .inl fun hp => ?_
      obtain ⟨s, hs⟩ := hp
      simp [← hs] at ht
  intro b b' hne
  cases b <;> cases b'
  · exact (hne rfl).elim
  · exact hc.symm.imp (fun hn => ⟨v, hf false hn⟩) fun hn => ⟨v, hf true hn⟩
  · exact hc.imp (fun hn => ⟨v, hf true hn⟩) fun hn => ⟨v, hf false hn⟩
  · exact (hne rfl).elim

theorem rule_fails_of_clearOf (order : Order) (hp : p.Forward) (h : v.Within) {k : Kind}
    (hc : ClearOf k.opens v.rest) : (rule order p k).Fails v v := by
  cases k with
  | null =>
    have hn := not_prefix_of_clearOf (c := 'n') (s := "ull".toList) rfl hc
    exact map_fails.2 ((literal_fails h).2 ⟨rfl, hn⟩)
  | bool =>
    refine either_fails.2 ⟨rfl, fun build hb => ?_⟩
    obtain ⟨b, -, rfl⟩ := List.mem_map.1 hb
    refine ⟨v, map_fails.2 ((literal_fails h).2 ⟨rfl, ?_⟩)⟩
    cases b
    · exact not_prefix_of_clearOf (c := 'f') (s := "alse".toList) rfl hc
    · exact not_prefix_of_clearOf (c := 't') (s := "rue".toList) rfl hc
  | string =>
    refine map_fails.2 ((wrap_fails (stretch_forward.map _) h).2 (.inl ⟨rfl, ?_⟩))
    exact not_prefix_of_clearOf rfl hc
  | number => exact map_fails.2 (convert_fails.2 ((stretch1_fails h).2 ⟨rfl, hc⟩))
  | array =>
    refine map_fails.2 ((wrap_fails (separateBy_forward hp "," comma_forward) h).2 (.inl ⟨rfl, ?_⟩))
    exact not_prefix_of_clearOf rfl hc
  | object =>
    have hm := separateBy_forward (member_forward hp) "," comma_forward
    refine map_fails.2 ((wrap_fails (hm.map _) h).2 (.inl ⟨rfl, ?_⟩))
    exact not_prefix_of_clearOf rfl hc

theorem opens_of_not_fails (hp : p.Forward) (h : v.Within) {k : Kind}
    (hn : ¬ (rule order p k).Fails v v) : ∃ c t, v.rest = c :: t ∧ k.opens c = true := by
  cases hr : v.rest with
  | nil => exact (hn (rule_fails_of_clearOf order hp h (by simp [hr]))).elim
  | cons c t =>
    refine ⟨c, t, rfl, ?_⟩
    by_cases hc : k.opens c = true
    · exact hc
    · exact (hn (rule_fails_of_clearOf order hp h (by simpa [hr] using hc))).elim

theorem rules_exclusive (order : Order) (hp : p.Forward) (h : v.Within) :
    Exclusive (rule order p) v := by
  intro k k' hne
  by_cases hk : (rule order p k).Fails v v
  · exact .inl ⟨v, hk⟩
  · by_cases hk' : (rule order p k').Fails v v
    · exact .inr ⟨v, hk'⟩
    · obtain ⟨c, t, hr, hc⟩ := opens_of_not_fails hp h hk
      obtain ⟨c', t', hr', hc'⟩ := opens_of_not_fails hp h hk'
      obtain ⟨rfl, rfl⟩ := List.cons.inj (hr.symm.trans hr')
      exact (hne (Kind.opens_unique hc hc')).elim

theorem null_yields (h : v.Within) :
    null.Yields v x w ↔ v.Spans "null".toList w ∧ x = .null := by
  simp [null, map_yields, literal_yields h]

theorem bool_yields (h : v.Within) :
    (bool order).Yields v x w ↔
      ∃ b ∈ order.truths, v.Spans (if b then "true" else "false").toList w ∧ x = .bool b := by
  rw [bool, either_yields (truths_exclusive h)]
  simp [truth, map_yields, literal_yields h]

theorem bool_not_faults (h : v.Within) : ¬ (bool order).Faults v e := by
  rw [bool, either_faults (truths_exclusive h)]
  simp [truth, map_faults, literal_not_faults]

theorem string_yields {s : String} (h : v.Within) :
    string.Yields v s w ↔ ∃ cs, v.Spans cs w ∧ Quoted cs s := by
  rw [string, wrap_yields (stretch_forward.map _) h]
  simp only [map_yields]
  refine ⟨fun hh => ?_, fun hh => ?_⟩
  · obtain ⟨y, z, hy, ⟨cs, hc, rfl⟩, hz⟩ := hh
    obtain ⟨hs, ha, -⟩ := (stretch_yields hy.within_next).1 hc
    exact ⟨_, (hy.trans hs).trans hz, .quoted (allOf_bne.1 ha)⟩
  · obtain ⟨_, hs, hq⟩ := hh
    cases hq with
    | @quoted cs hn =>
      obtain ⟨z, hs, hz⟩ := hs.split
      obtain ⟨y, hy, hs⟩ := @View.Spans.split v z ['"'] cs hs
      refine ⟨y, z, hy, ⟨cs, (stretch_yields hs.within).2 ⟨hs, allOf_bne.2 hn, ?_⟩, rfl⟩, hz⟩
      rw [hz.ahead]
      simp

/-- A text in double quotes fails before them, or at the end if the second one is missing. -/
theorem string_fails (hv : v.Within) :
    string.Fails v w ↔
      w = v ∧ ¬ ['"'] <+: v.rest ∨ ∃ cs, v.Spans ('"' :: cs) w ∧ '"' ∉ cs ∧ w.rest = [] := by
  rw [string, wrap_fails (stretch_forward.map _) hv]
  simp only [map_fails, many_not_fails, false_or, map_yields]
  refine or_congr_right ⟨fun hh => ?_, fun hh => ?_⟩
  · obtain ⟨x, hx, _, ⟨cs, hc, rfl⟩, hn⟩ := hh
    obtain ⟨hs, ha, hw⟩ := (stretch_yields hx.within_next).1 hc
    refine ⟨cs, hx.trans hs, allOf_bne.1 ha, ?_⟩
    cases hr : w.rest with
    | nil => rfl
    | cons c t =>
      obtain rfl : c = '"' := by simpa [hr] using hw
      exact (hn ⟨t, hr.symm⟩).elim
  · obtain ⟨cs, hs, hn, hr⟩ := hh
    obtain ⟨x, hx, hs⟩ := @View.Spans.split v w ['"'] cs hs
    have hc := (stretch_yields hx.within_next).2 ⟨hs, allOf_bne.2 hn, by simp [hr]⟩
    exact ⟨x, hx, _, ⟨cs, hc, rfl⟩, by simp [hr]⟩

theorem string_not_faults (h : v.Within) : ¬ string.Faults v e := by
  rw [string, wrap_faults h]
  intro hh
  obtain ⟨y, hy, hf⟩ := hh
  exact stretch_not_faults hy.within_next (map_faults.1 hf)

theorem number_yields {n : Nat} (h : v.Within) :
    number.Yields v n w ↔
      ∃ ds, v.Spans ds w ∧ ds ≠ [] ∧ ds.length ≤ maxDigits ∧ AllOf Char.isDigit ds ∧
        ClearOf Char.isDigit w.rest ∧ n = decimalValue ds := by
  simp only [number, convert_yields, stretch1_yields h, readNumeral_eq_ok]
  refine ⟨fun hh => ?_, fun hh => ?_⟩
  · obtain ⟨ds, ⟨hne, hs, ha, hc⟩, hl, rfl⟩ := hh
    exact ⟨ds, hs, hne, hl, ha, hc, rfl⟩
  · obtain ⟨ds, hs, hne, hl, ha, hc, rfl⟩ := hh
    exact ⟨ds, ⟨hne, hs, ha, hc⟩, hl, rfl⟩

theorem readNumeral_eq_error {ds : List Char} :
    readNumeral ds = .error e ↔ maxDigits < ds.length ∧ e = .tooManyDigits ds.length := by
  unfold readNumeral
  split
  · rename_i h
    simp [h, eq_comm]
  · rename_i h
    simp [h]

theorem number_faults (h : v.Within) :
    number.Faults v e ↔
      ∃ ds w, v.Spans ds w ∧ maxDigits < ds.length ∧ AllOf Char.isDigit ds ∧
        ClearOf Char.isDigit w.rest ∧ e = .tooManyDigits ds.length := by
  simp only [number, convert_faults, stretch1_not_faults h, stretch1_yields h,
    readNumeral_eq_error, false_or]
  refine ⟨fun hh => ?_, fun hh => ?_⟩
  · obtain ⟨ds, w, ⟨_, hs, ha, hc⟩, hl, he⟩ := hh
    exact ⟨ds, w, hs, hl, ha, hc, he⟩
  · obtain ⟨ds, w, hs, hl, ha, hc, he⟩ := hh
    refine ⟨ds, w, ⟨?_, hs, ha, hc⟩, hl, he⟩
    intro hn
    simp [hn] at hl

end Grammar

end PlainJson
