import PlainJson.Proofs.Grammar.Expression
import PlainJson.Proofs.Parser.Silence

/-!
The order of the alternatives. The kinds of values, and the two truth values, can be tried in any
order: on no view do two of the rules not fail, and the failures of the others leave no trace.
-/
set_option autoImplicit false

namespace PlainJson

/-- Every kind and every truth value is tried once, in whatever order. -/
structure Order.Complete (order : Order) : Prop where
  kinds : order.kinds.Perm Order.standard.kinds
  truths : order.truths.Perm Order.standard.truths

namespace Grammar

open PlainJson.Parser

variable {order : Order} {p : Parser Value} {S : View → Prop}

theorem rule_silent (order : Order) (hp : p.Silent) (k : Kind) : (rule order p k).Silent := by
  rw [← parser_ruleExpr]
  have hl : (ruleExpr order k).Leaves Silent := (regular_rule (p := p) k).1.imp fun _ h => h.elim
  exact (ruleExpr order k).silent (fun _ => hp) hl

theorem body_silent (order : Order) (hp : p.Silent) : (body order p).Silent :=
  (Silent.either order.kinds fun k _ => rule_silent order hp k).wrapBlank

theorem valueAt_silent (order : Order) (depth : Nat) : (valueAt order depth).Silent := by
  induction depth with
  | zero => exact Silent.wrapBlank fun _ => rfl
  | succ d ih => exact body_silent order ih

theorem bool_perm (h : order.truths.Perm Order.standard.truths) :
    AgreeOn S (bool order) (bool .standard) :=
  fun _ hv _ => either_perm h (truths_exclusive hv) fun _ => (silent_literal _).map _

theorem rule_perm (h : order.truths.Perm Order.standard.truths) (p : Parser Value) (k : Kind) :
    AgreeOn S (rule order p k) (rule .standard p k) := by
  cases k with
  | bool => exact bool_perm h
  | null | string | number | array | object => exact AgreeOn.refl S _

/-- The rules inside may read the values in them by whichever parser. -/
theorem body_perm (h : order.Complete) (hS : View.Onward S) (hf : p.Forward) (hp : p.Silent) :
    AgreeOn S (body order p) (body .standard p) := by
  have hkinds : AgreeOn S (either (order.kinds.map fun k _ => rule order p k))
      (either (Order.standard.kinds.map fun k _ => rule order p k)) :=
    fun _ hv _ => either_perm h.kinds (rules_exclusive order hf hv) (rule_silent order hp)
  have hrules := AgreeOn.either (S := S) Order.standard.kinds fun k _ => rule_perm h.truths p k
  exact (hkinds.trans hrules).wrapBlank hS (rules_advance order hf).forward

/-- The order is changed inside first, and then outside. -/
theorem valueAt_perm (h : order.Complete) (depth : Nat) :
    AgreeOn (View.Below depth) (valueAt order depth) (valueAt .standard depth) := by
  induction depth with
  | zero => exact fun v _ hn => (Nat.not_lt_zero _ hn).elim
  | succ d ih =>
    have hinside := body_agree_below order (valueAt_advances order d).forward ih
    have houtside := body_perm h (View.below_onward (d + 1))
      (valueAt_advances .standard d).forward (valueAt_silent .standard d)
    exact hinside.trans houtside

/-- Whatever the order of the alternatives, at every depth, a run comes to the same end: the same
value and what remains, the same place of failure, or the same fault. -/
theorem valueIn_perm (order : Order) (h : order.Complete) (v : View) (hv : v.Within) :
    (valueIn order).run v = value.run v := by
  rw [value, valueIn_run_depth, valueIn_run_depth]
  exact valueAt_perm h (v.room + 1) v hv (Nat.lt_succ_self _)

def backwards : Order := ⟨Order.standard.kinds.reverse, Order.standard.truths.reverse⟩

theorem valueIn_perm_backwards :
    backwards.Complete ∧ (View.ofString "x[true, 1]" 1).Within ∧
      (valueIn backwards).run (View.ofString "x[true, 1]" 1) =
        .done (.success (View.ofString "x[true, 1]" 10) (.list [.bool true, .int 1])) := by
  have h : backwards.Complete := ⟨List.reverse_perm _, List.reverse_perm _⟩
  have hv : (View.ofString "x[true, 1]" 1).Within := ⟨by decide, by decide⟩
  exact ⟨h, hv, (valueIn_perm backwards h _ hv).trans rfl⟩

end Grammar

end PlainJson
