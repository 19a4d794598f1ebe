import PlainJson.Proofs.Grammar.Expression

/-!
The grammar inside other grammars. Whatever is put together from the parsers of this library, the
rules for documents among them, reads what is ahead of a view as if nothing stood before it.
-/
set_option autoImplicit false

namespace PlainJson.Grammar

open PlainJson.Parser

variable {ι : Type} {τ : ι → Type} {α : Type}

/-- With the text `u` in front, a run that begins as many characters further to the right comes to
the same value, failure or fault, and is as many characters further to the right at its end. -/
theorem run_append (rules : (i : ι) → Expr τ (τ i)) (e : Expr τ α)
    (hr : ∀ i, (rules i).Leaves IsRule) (he : e.Leaves IsRule) (depth : Nat)
    (hrc : ∀ d i, (rules i).Repeated Consumes (Expr.unroll rules d))
    (hec : e.Repeated Consumes (Expr.unroll rules depth)) (u w : String) (k : Nat)
    (hk : k ≤ w.length) :
    ((e.parser (Expr.unroll rules depth)).run (View.ofString (u ++ w) (u.length + k))).ending =
      ((e.parser (Expr.unroll rules depth)).run (View.ofString w k)).ending.map
        (Outcome.shift u.toList.toArray) := by
  have hl : ∀ {γ : Type} (p : Parser γ), IsRule p → p.Keeps ∧ p.Local :=
    fun _ h => ⟨h.keeps, h.isLocal⟩
  have hkeeps := Expr.keeps_unroll fun i => (hr i).imp fun _ h => h.keeps
  have hlocal := Expr.local_unroll (fun i => (hr i).imp hl) hrc
  have hv : (View.ofString w k).Within := by
    simp only [View.Within, View.ofString, List.size_toArray, String.length_toList]
    omega
  rw [← View.shift_ofString]
  exact (e.isLocal (hkeeps depth) (hlocal depth) (he.imp hl) hec).run_shift hv _

/-- A value, in parentheses or not. -/
def bracketed : Unit → ValueExpr Value := fun _ =>
  .either [true, false] fun
    | true => (Expr.ref ()).wrap "(" ")"
    | false => .leaf value

def listed : ValueExpr (List Value) := Expr.separateBy (.ref ()) ";"

theorem run_append_bracketed :
    (∀ i, (bracketed i).Leaves IsRule) ∧ listed.Leaves IsRule ∧
      (∀ d i, (bracketed i).Repeated Consumes (Expr.unroll bracketed d)) ∧
      listed.Repeated Consumes (Expr.unroll bracketed 3) ∧ 1 ≤ "-(1);[2]".length ∧
      ((listed.parser (Expr.unroll bracketed 3)).run
          (View.ofString ("ab" ++ "-(1);[2]") ("ab".length + (1 : Nat)))).ending =
        .ok (.success (View.ofString "ab-(1);[2]" 10) [.int 1, .list [.int 2]]) := by
  have hr : ∀ i, (bracketed i).Leaves IsRule := by
    rintro i (_ | _) -
    · exact .value
    · exact ⟨trivial, trivial, trivial⟩
  have hrc : ∀ d i, (bracketed i).Repeated Consumes (Expr.unroll bracketed d) := by
    rintro d i (_ | _) -
    · trivial
    · exact ⟨trivial, trivial, trivial⟩
  have he : listed.Leaves IsRule := ⟨trivial, trivial, trivial⟩
  have hec : ∀ d, listed.Repeated Consumes (Expr.unroll bracketed d) := by
    intro d
    have hf := (Expr.keeps_unroll (fun i => (hr i).imp fun _ h => h.keeps) d ()).forward
    have hb : ((literal ";").right (Expr.unroll bracketed d ())).Advances :=
      (literal_advances (by simp)).right hf
    exact ⟨trivial, hb.consumes, trivial, trivial⟩
  have hk : 1 ≤ "-(1);[2]".length := by decide
  have ho : ((listed.parser (Expr.unroll bracketed 3)).run
      (View.ofString "-(1);[2]" (1 : Nat))).ending =
        .ok (.success (View.ofString "-(1);[2]" 8) [.int 1, .list [.int 2]]) := rfl
  have hs := run_append bracketed listed hr he 3 hrc (hec 3) "ab" "-(1);[2]" 1 hk
  rw [ho] at hs
  exact ⟨hr, he, hrc, hec 3, hk, hs⟩

end PlainJson.Grammar
