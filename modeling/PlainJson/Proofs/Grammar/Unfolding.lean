import PlainJson.Grammar
import PlainJson.Proofs.Parser.Around

/-!
The bound on the depth of values is never felt: on a view within its text, reading a value is white
space, one of the six rules, and white space again, where the rules read values in the same way.
-/
set_option autoImplicit false

namespace PlainJson.Grammar

open PlainJson.Parser

/-- A value, given how to read the values inside it. -/
def body (order : Order) (value : Parser Value) : Parser Value :=
  wrapBlank (either (order.kinds.map fun k _ => rule order value k))

variable {order : Order} {p q : Parser Value} {n : Nat}

theorem comma_forward : (literal ",").Forward := literal_forward ","

theorem string_advances : string.Advances := by
  have hq : (literal "\"").Advances := literal_advances (by simp)
  exact hq.right ((stretch_forward.map _).left hq.forward)

theorem number_advances : number.Advances :=
  (many1_advances (anyChar_advances.filter _)).convert _

theorem array_advances (hp : p.Forward) : (array p).Advances := by
  have ho : (literal "[").Advances := literal_advances (by simp)
  exact ho.right ((separateBy_forward hp "," comma_forward).left (literal_forward "]"))

theorem member_advances (hp : p.Forward) : (member p).Advances :=
  ((wrapBlank_advances string_advances).left (literal_forward ":")).pair hp

theorem member_forward (hp : p.Forward) : (member p).Forward := (member_advances hp).forward

theorem object_advances (hp : p.Forward) : (object p).Advances := by
  have ho : (literal "\x7b").Advances := literal_advances (by simp)
  have hm := separateBy_forward (member_forward hp) "," comma_forward
  exact ho.right ((hm.map _).left (literal_forward "\x7d"))

theorem bool_advances (order : Order) : (bool order).Advances := by
  apply Advances.either
  intro build hb
  obtain ⟨b, -, rfl⟩ := List.mem_map.1 hb
  have hl : (literal (if b then "true" else "false")).Advances :=
    literal_advances (by cases b <;> simp)
  exact hl.map _

theorem rule_advances (order : Order) (hp : p.Forward) (k : Kind) : (rule order p k).Advances := by
  cases k with
  | null =>
    have hl : (literal "null").Advances := literal_advances (by simp)
    exact hl.map _
  | bool => exact bool_advances order
  | string => exact string_advances.map _
  | number => exact number_advances.map _
  | array => exact (array_advances hp).map _
  | object => exact (object_advances hp).map _

theorem rules_advance (order : Order) (hp : p.Forward) :
    (either (order.kinds.map fun k _ => rule order p k)).Advances := by
  apply Advances.either
  intro build hb
  obtain ⟨k, -, rfl⟩ := List.mem_map.1 hb
  exact rule_advances order hp k

theorem body_advances (order : Order) (hp : p.Forward) : (body order p).Advances :=
  wrapBlank_advances (rules_advance order hp)

theorem valueAt_advances (order : Order) (depth : Nat) : (valueAt order depth).Advances := by
  induction depth with
  | zero =>
    apply wrapBlank_advances
    intro v a w _ hy
    simp [Yields, Run.fault] at hy
  | succ d ih => exact body_advances order ih.forward

theorem valueIn_run_depth (order : Order) (v : View) :
    (valueIn order).run v = (valueAt order (v.room + 1)).run v := rfl

theorem valueIn_advances (order : Order) : (valueIn order).Advances := by
  intro v x w hv hy
  rw [Yields, valueIn_run_depth] at hy
  exact valueAt_advances order (v.room + 1) v x w hv hy

section
variable {S T : View → Prop}

/-- A value inside another is read with at least one character less ahead. -/
theorem rule_agree (order : Order) (hT : View.Onward T) (hST : View.Leads S T) (hf : p.Forward)
    (h : AgreeOn T p q) (k : Kind) : AgreeOn S (rule order p k) (rule order q k) := by
  cases k with
  | null => exact AgreeOn.refl _ _
  | bool => exact AgreeOn.refl _ _
  | string => exact AgreeOn.refl _ _
  | number => exact AgreeOn.refl _ _
  | array =>
    have ho : (literal "[").Advances := literal_advances (by simp)
    have hs := h.separateBy hT hf "," comma_forward
    have hl := hs.left hT (separateBy_forward hf "," comma_forward) (AgreeOn.refl T (literal "]"))
    exact (AgreeOn.right_advances hST ho hl).map _
  | object =>
    have ho : (literal "\x7b").Advances := literal_advances (by simp)
    have hk := (wrapBlank_forward string_advances.forward).left (literal_forward ":")
    have hm := (AgreeOn.refl T _).pair hT hk h
    have hs := hm.separateBy hT (member_forward hf) "," comma_forward
    have hl := (hs.map entriesOf).left hT
      ((separateBy_forward (member_forward hf) "," comma_forward).map _)
      (AgreeOn.refl T (literal "\x7d"))
    exact (AgreeOn.right_advances hST ho hl).map _

theorem body_agree (order : Order) (hS : View.Onward S) (hT : View.Onward T)
    (hST : View.Leads S T) (hf : p.Forward) (h : AgreeOn T p q) :
    AgreeOn S (body order p) (body order q) := by
  have hr := AgreeOn.either order.kinds fun k _ => rule_agree order hT hST hf h k
  exact hr.wrapBlank hS (rules_advance order hf).forward

end

theorem body_agree_below (order : Order) (hf : p.Forward) (h : AgreeOn (View.Below n) p q) :
    AgreeOn (View.Below (n + 1)) (body order p) (body order q) :=
  body_agree order (View.below_onward _) (View.below_onward _) (View.below_leads n) hf h

theorem valueAt_agree (order : Order) {n d e : Nat} (hd : n ≤ d) (he : n ≤ e) :
    AgreeOn (View.Below n) (valueAt order d) (valueAt order e) := by
  induction n generalizing d e with
  | zero => exact fun v _ hn => (Nat.not_lt_zero _ hn).elim
  | succ n ih =>
    obtain ⟨d, rfl⟩ := Nat.exists_eq_add_of_le' hd
    obtain ⟨e, rfl⟩ := Nat.exists_eq_add_of_le' he
    have h := ih (Nat.le_add_left n d) (Nat.le_add_left n e)
    exact body_agree_below order (valueAt_advances order _).forward h

theorem valueIn_run (order : Order) {v : View} (hv : v.Within) :
    (valueIn order).run v = (body order (valueIn order)).run v := by
  have h : AgreeOn (View.Below v.room) (valueAt order v.room) (valueIn order) := by
    intro u hu hn
    rw [valueIn_run_depth]
    exact valueAt_agree order hn (Nat.le_refl _) u hu (Nat.lt_succ_self _)
  rw [valueIn_run_depth]
  exact body_agree_below order (valueAt_advances order _).forward h v hv (Nat.lt_succ_self _)

theorem value_run {v : View} (hv : v.Within) : value.run v = (body .standard value).run v :=
  valueIn_run .standard hv

end PlainJson.Grammar
