import PlainJson.Proofs.Grammar.Reading
import PlainJson.Proofs.Parser.Shift

/-!
The grammar of documents as expressions, in which the only thing referred to is a value. So all the
parts of the rules can be told, and among them those that are repeated.
-/
set_option autoImplicit false

namespace PlainJson.Grammar

open PlainJson.Parser

/-- The seven rules, each with values of its own type. -/
inductive IsRule : {α : Type} → Parser α → Prop where
  | null : IsRule null
  | bool : IsRule (bool .standard)
  | string : IsRule string
  | number : IsRule number
  | array : IsRule (array value)
  | object : IsRule (object value)
  | value : IsRule value

/-- The parsers that are repeated in the rules, where `p` reads the values inside. -/
inductive Loop (p : Parser Value) : {α : Type} → Parser α → Prop where
  | blank : Loop p blank
  | unquoted : Loop p (anyChar.filter fun c => c != '"')
  | digit : Loop p (anyChar.filter Char.isDigit)
  | item : Loop p ((literal ",").right p)
  | member : Loop p ((literal ",").right (member p))

abbrev ValueExpr : Type → Type 1 := Expr fun _ : Unit => Value

def nullExpr : ValueExpr Value := (Expr.literal "null").map fun _ => .null

def boolExpr (order : Order) : ValueExpr Value :=
  .either order.truths fun b => (Expr.literal (if b then "true" else "false")).map fun _ => .bool b

def stringExpr : ValueExpr String :=
  ((Expr.many (Expr.anyChar.filter fun c => c != '"')).map String.ofList).wrap "\"" "\""

def numberExpr : ValueExpr Nat := (Expr.anyChar.filter Char.isDigit).many1.convert readNumeral

def arrayExpr : ValueExpr (List Value) := (Expr.separateBy (.ref ()) ",").wrap "[" "]"

def memberExpr : ValueExpr (String × Value) :=
  (stringExpr.wrapBlank.left (.literal ":")).pair (.ref ())

def objectExpr : ValueExpr (List (String × Value)) :=
  ((memberExpr.separateBy ",").map entriesOf).wrap "\x7b" "\x7d"

def ruleExpr (order : Order) : Kind → ValueExpr Value
  | .null => nullExpr
  | .bool => boolExpr order
  | .string => stringExpr.map .text
  | .number => numberExpr.map fun n => .int n
  | .array => arrayExpr.map .list
  | .object => objectExpr.map .dict

def bodyExpr (order : Order) : ValueExpr Value :=
  Expr.wrapBlank (.either order.kinds (ruleExpr order))

variable {order : Order} {p : Parser Value}

theorem parser_ruleExpr (k : Kind) : (ruleExpr order k).parser (fun _ => p) = rule order p k := by
  cases k with
  | null | bool => rfl
  | string => simp [ruleExpr, stringExpr, Expr.parser, rule, string]
  | number => simp [ruleExpr, numberExpr, Expr.parser, rule, number]
  | array => simp [ruleExpr, arrayExpr, Expr.parser, rule, array]
  | object =>
    simp [ruleExpr, objectExpr, memberExpr, stringExpr, Expr.parser, rule, object, member, string]

theorem parser_bodyExpr : (bodyExpr order).parser (fun _ => p) = body order p := by
  simp [bodyExpr, body, Expr.parser, parser_ruleExpr]

theorem Loop.advances {α : Type} {q : Parser α} (h : Loop p q) (hp : p.Advances) : q.Advances := by
  cases h with
  | blank | unquoted | digit => exact anyChar_advances.filter _
  | item => exact behind_advances hp
  | member => exact behind_advances (member_advances hp.forward)

/-- A part of the grammar: no leaf in it, and nothing repeated but what is listed. -/
def Regular {α : Type} (p : Parser Value) (e : ValueExpr α) : Prop :=
  e.Leaves (fun _ => False) ∧ e.Repeated (Loop p) fun _ => p

section
variable {α β : Type} {e : ValueExpr α} {f : ValueExpr β}

theorem regular_literal (s : String) : Regular p (.literal s) := ⟨trivial, trivial⟩

theorem regular_ref : Regular p (.ref ()) := ⟨trivial, trivial⟩

theorem Regular.pair (he : Regular p e) (hf : Regular p f) : Regular p (e.pair f) :=
  ⟨⟨he.1, hf.1⟩, he.2, hf.2⟩

theorem Regular.map (he : Regular p e) (g : α → β) : Regular p (e.map g) := he

theorem Regular.left (he : Regular p e) (hf : Regular p f) : Regular p (e.left f) :=
  (he.pair hf).map _

theorem Regular.right (he : Regular p e) (hf : Regular p f) : Regular p (e.right f) :=
  (he.pair hf).map _

theorem Regular.wrap (he : Regular p e) (before after : String) :
    Regular p (e.wrap before after) :=
  (regular_literal before).right (he.left (regular_literal after))

theorem Regular.many (he : Regular p e) (hl : Loop p (e.parser fun _ => p)) :
    Regular p (.many e) :=
  ⟨he.1, hl, he.2⟩

theorem regular_char (g : Char → Bool) : Regular p (Expr.anyChar.filter g) := ⟨trivial, trivial⟩

theorem regular_chars {g : Char → Bool} (hl : Loop p (anyChar.filter g)) :
    Regular p (.many (Expr.anyChar.filter g)) :=
  (regular_char g).many hl

theorem Regular.wrapBlank (he : Regular p e) : Regular p e.wrapBlank :=
  (regular_chars .blank).right (he.left (regular_chars .blank))

theorem Regular.separateBy (he : Regular p e)
    (hl : Loop p ((literal ",").right (e.parser fun _ => p))) : Regular p (e.separateBy ",") :=
  (he.pair (((regular_literal ",").right he).many hl)).map _

theorem Regular.either {κ : Type} {ks : List κ} {r : κ → ValueExpr α}
    (h : ∀ k, Regular p (r k)) : Regular p (.either ks r) :=
  ⟨fun k _ => (h k).1, fun k _ => (h k).2⟩

end

theorem regular_null : Regular p nullExpr := (regular_literal _).map _

theorem regular_bool : Regular p (boolExpr order) :=
  Regular.either fun _ => (regular_literal _).map _

theorem regular_string : Regular p stringExpr := ((regular_chars .unquoted).map _).wrap _ _

theorem regular_number : Regular p numberExpr :=
  ((regular_char _).pair (regular_chars .digit)).map cons

theorem regular_array : Regular p arrayExpr := (regular_ref.separateBy .item).wrap _ _

theorem regular_member : Regular p memberExpr :=
  (regular_string.wrapBlank.left (regular_literal _)).pair regular_ref

theorem regular_object : Regular p objectExpr :=
  ((regular_member.separateBy .member).map _).wrap _ _

theorem regular_rule (k : Kind) : Regular p (ruleExpr order k) := by
  cases k with
  | null => exact regular_null
  | bool => exact regular_bool
  | string => exact regular_string.map _
  | number => exact regular_number.map _
  | array => exact regular_array.map _
  | object => exact regular_object.map _

theorem regular_body : Regular p (bodyExpr order) :=
  (Regular.either fun k => regular_rule k).wrapBlank

/-- The only reference is to values, so they are all the rules that are referred to. -/
def valueRules (order : Order) : Unit → ValueExpr Value := fun _ => bodyExpr order

theorem unroll_succ (order : Order) (depth : Nat) :
    Expr.unroll (valueRules order) (depth + 1) () =
      body order (Expr.unroll (valueRules order) depth ()) :=
  parser_bodyExpr (p := Expr.unroll (valueRules order) depth ())

theorem unroll_advances (order : Order) (depth : Nat) :
    (Expr.unroll (valueRules order) depth ()).Advances := by
  induction depth with
  | zero =>
    intro v x w _ hy
    simp [Yields, Expr.unroll, endless, Run.fault] at hy
  | succ d ih =>
    rw [unroll_succ]
    exact body_advances order ih.forward

/-- Values nested at most `depth` deep are what is read if the references are followed so deep. -/
theorem valueAt_unroll (order : Order) (depth : Nat) :
    AgreeOn (View.Below depth) (valueAt order depth) (Expr.unroll (valueRules order) depth ()) := by
  induction depth with
  | zero => exact fun v _ hn => (Nat.not_lt_zero _ hn).elim
  | succ d ih =>
    rw [unroll_succ]
    exact body_agree_below order (valueAt_advances order d).forward ih

theorem value_run_unroll {v : View} (hv : v.Within) :
    value.run v = (Expr.unroll (valueRules .standard) (v.room + 1) ()).run v := by
  rw [value, valueIn_run_depth]
  exact valueAt_unroll .standard (v.room + 1) v hv (Nat.lt_succ_self _)

theorem keeps_value : value.Keeps where
  yields hv hy := value_advances.forward.reaches hv hy
  fails hv hf := by
    obtain ⟨_, hs, -⟩ := value_fails hv hf
    exact hs.reaches

theorem repeated_consumes {α : Type} {e : ValueExpr α} (he : Regular p e) (hp : p.Advances) :
    e.Repeated Consumes fun _ => p :=
  he.2.imp fun _ hl => (hl.advances hp).consumes

theorem local_unroll (order : Order) (depth : Nat) :
    (Expr.unroll (valueRules order) depth ()).Local :=
  Expr.local_unroll (fun _ => (regular_body (p := value)).1.imp fun _ h => h.elim)
    (fun d _ => repeated_consumes regular_body (unroll_advances order d)) depth ()

theorem local_value : value.Local where
  yields {u v a w} hv hy := by
    rw [Yields, value_run_unroll hv] at hy
    rw [Yields, value_run_unroll (View.shift_within u hv), View.room_shift]
    exact (local_unroll _ _).yields hv hy
  fails {u v w} hv hf := by
    rw [Fails, value_run_unroll hv] at hf
    rw [Fails, value_run_unroll (View.shift_within u hv), View.room_shift]
    exact (local_unroll _ _).fails hv hf
  faults {u v e} hv hf := by
    rw [Faults, value_run_unroll hv] at hf
    rw [Faults, value_run_unroll (View.shift_within u hv), View.room_shift]
    exact (local_unroll _ _).faults hv hf

namespace IsRule

variable {α : Type} {q : Parser α}

theorem exists_expr (h : IsRule q) :
    ∃ e : ValueExpr α, e.parser (fun _ => Grammar.value) = q ∧ Regular Grammar.value e := by
  cases h with
  | null => exact ⟨nullExpr, rfl, regular_null⟩
  | bool => exact ⟨boolExpr .standard, rfl, regular_bool⟩
  | string => exact ⟨stringExpr, rfl, regular_string⟩
  | number => exact ⟨numberExpr, rfl, regular_number⟩
  | array => exact ⟨arrayExpr, rfl, regular_array⟩
  | object => exact ⟨objectExpr, rfl, regular_object⟩
  | value => exact ⟨.ref (), rfl, regular_ref⟩

theorem advances (h : IsRule q) : q.Advances := by
  have hf := value_advances.forward
  cases h with
  | null => exact (literal_advances (by simp)).map _
  | bool => exact bool_advances .standard
  | string => exact string_advances
  | number => exact number_advances
  | array => exact array_advances hf
  | object => exact object_advances hf
  | value => exact value_advances

theorem keeps (h : IsRule q) : q.Keeps := by
  obtain ⟨e, rfl, he⟩ := h.exists_expr
  exact e.keeps (fun _ => keeps_value) (he.1.imp fun _ h => h.elim)

theorem isLocal (h : IsRule q) : q.Local := by
  obtain ⟨e, rfl, he⟩ := h.exists_expr
  exact e.isLocal (fun _ => keeps_value) (fun _ => local_value) (he.1.imp fun _ h => h.elim)
    (repeated_consumes he value_advances)

end IsRule

end PlainJson.Grammar
