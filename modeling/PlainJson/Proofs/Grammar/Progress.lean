import PlainJson.Proofs.Grammar.Expression
import PlainJson.Proofs.Grammar.Places

/-!
Why reading comes to an end. A value inside another begins further to the right, since a bracket at
least comes first; what is repeated goes over a character each time; and so neither the depth of
values nor the turns of a repetition can exceed the characters ahead.
-/
set_option autoImplicit false

namespace PlainJson.Grammar

open PlainJson.Parser

/-- Values nested at most `depth` deep, read with an eye on the values that are being read already:
`outer` tells where these began, and a value that does not begin further to the right than each of
them ends the run by the fault `alarm`. -/
def inside (order : Order) (alarm : Fault) : Nat → List Int → Parser Value
  | 0, _ => valueAt order 0
  | depth + 1, outer =>
    { label := value.label
      run v :=
        if ∀ p ∈ outer, p < v.pos then
          (body order (inside order alarm depth (v.pos :: outer))).run v
        else .fault alarm }

example (alarm : Fault) :
    (inside .standard alarm 2 [1]).run (View.ofString "[1]" 1) = .fault alarm := rfl

variable {order : Order} {v w : View} {e : Fault}

theorem inside_run (alarm : Fault) (depth : Nat) (outer : List Int) (hv : v.Within)
    (ho : ∀ p ∈ outer, p < v.pos) :
    (inside order alarm depth outer).run v = (valueAt order depth).run v := by
  induction depth generalizing outer v with
  | zero => rfl
  | succ d ih =>
    have hS : View.Onward fun u => v.pos ≤ u.pos := by
      intro u cs w hu hs
      exact Int.le_trans hu hs.reaches.2.1
    have hT : View.Onward fun u => v.pos < u.pos := by
      intro u cs w hu hs
      exact Int.lt_of_lt_of_le hu hs.reaches.2.1
    have hST : View.Leads (fun u => v.pos ≤ u.pos) fun u => v.pos < u.pos := by
      intro u cs w hu hn hs
      have hl := List.length_pos_iff.2 hn
      rw [hs.next, View.advance_pos]
      omega
    have hi : AgreeOn (fun u => v.pos < u.pos) (valueAt order d)
        (inside order alarm d (v.pos :: outer)) := by
      intro u hu hlt
      refine (ih (v.pos :: outer) hu fun p hp => ?_).symm
      rcases List.mem_cons.1 hp with rfl | hp
      · exact hlt
      · exact Int.lt_trans (ho p hp) hlt
    have hb := body_agree order hS hT hST (valueAt_advances order d).forward hi
    simp only [inside, if_pos ho]
    exact (hb v hv (Int.le_refl _)).symm

theorem rule_faults {k : Kind} (hv : v.Within) (h : (rule .standard value k).Faults v e) :
    ∃ n, e = .tooManyDigits n := by
  obtain ⟨c, t, hr, hc⟩ :=
    opens_of_not_fails value_advances.forward hv fun hf => hf.not_faults h
  have hf := value_faults_of_rule hv hr (Kind.not_isBlank_of_opens hc) h
  obtain ⟨n, -, he⟩ := overlong_of_value_faults hv hf
  exact ⟨n, he⟩

theorem IsRule.faults {α : Type} {q : Parser α} (h : IsRule q) (hv : v.Within)
    (hf : q.Faults v e) : ∃ n, e = .tooManyDigits n := by
  cases h with
  | null => exact rule_faults (k := .null) hv hf
  | bool => exact rule_faults (k := .bool) hv hf
  | string => exact rule_faults (k := .string) hv (map_faults.2 hf)
  | number => exact rule_faults (k := .number) hv (map_faults.2 hf)
  | array => exact rule_faults (k := .array) hv (map_faults.2 hf)
  | object => exact rule_faults (k := .object) hv (map_faults.2 hf)
  | value =>
    obtain ⟨n, -, he⟩ := overlong_of_value_faults hv hf
    exact ⟨n, he⟩

/-- Every rule ends with a result or by the fault of too many digits, and with a value only further
to the right. Values are read from further and further to the right the deeper they are, as watching
for it makes no difference. Whatever the grammar repeats moves on each time, so that one turn more
than there are characters ahead is enough, and one level of values more than there are characters in
the text. -/
theorem rules_progress (v : View) (hv : v.Within) :
    (∀ {α : Type} (q : Parser α), IsRule q →
      ((∃ o, (q.run v).ending = .ok o) ∨ ∃ n, q.Faults v (.tooManyDigits n)) ∧
        ∀ a w, q.Yields v a w → w.text = v.text ∧ v.pos < w.pos ∧ w.pos ≤ w.text.size) ∧
    (∀ alarm, (inside .standard alarm (v.room + 1) []).run v = value.run v) ∧
    (((bodyExpr .standard).parser fun _ => value).run v = value.run v ∧
      (bodyExpr .standard).Repeated (fun q => ∀ u, v.Reaches u →
        (∀ a w, q.Yields u a w → u.pos < w.pos) ∧
          ∀ n, u.rest.length < n → q.repeatFrom n [] [] u = (many q).run u) fun _ => value) ∧
    ∀ depth, v.text.size < depth → (valueAt .standard depth).run v = value.run v := by
  refine ⟨fun q hq => ⟨?_, fun a w hy => ?_⟩, fun alarm => ?_, ⟨?_, ?_⟩, fun depth hd => ?_⟩
  · rcases q.ends v with ⟨a, w, hy⟩ | ⟨w, hf⟩ | ⟨e, hf⟩
    · exact .inl ⟨_, hy⟩
    · exact .inl ⟨_, hf⟩
    · obtain ⟨n, rfl⟩ := hq.faults hv hf
      exact .inr ⟨n, hf⟩
  · obtain ⟨ht, -, hs⟩ := hq.keeps.yields hv hy
    exact ⟨ht, hq.advances.consumes v a w hv hy, hs⟩
  · exact inside_run alarm _ [] hv (by simp)
  · rw [parser_bodyExpr]
    exact (value_run hv).symm
  · refine regular_body.2.imp fun q hl u hu => ?_
    have ha := hl.advances value_advances
    have hw := hu.within hv
    refine ⟨fun a w hy => ha.consumes u a w hw hy, fun n hn => ?_⟩
    rw [View.length_rest hw] at hn
    exact repeatFrom_steps ha [] [] hw hn u.room_lt_reach
  · have hr : v.room < depth := by
      have h₁ := hv.1
      simp only [View.room]
      omega
    have ha := valueAt_agree .standard (Nat.succ_le_of_lt hr) (Nat.le_refl (v.room + 1))
    exact ha v hv (Nat.lt_succ_self _)

theorem rules_progress_nested :
    (View.ofString "[1, [2]]" 0).Within ∧
      (∀ alarm, (inside .standard alarm 9 []).run (View.ofString "[1, [2]]" 0) =
        value.run (View.ofString "[1, [2]]" 0)) ∧
      value.run (View.ofString "[1, [2]]" 0) =
        .done (.success (View.ofString "[1, [2]]" 8) (.list [.int 1, .list [.int 2]])) := by
  have hv := View.within_ofString "[1, [2]]"
  exact ⟨hv, (rules_progress _ hv).2.1, rfl⟩

end PlainJson.Grammar
