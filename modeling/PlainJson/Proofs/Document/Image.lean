import PlainJson.Proofs.Document.Acceptance
import PlainJson.Proofs.Grammar.Compact

/-!
Which values are read, and that what is written in a compact way is read back.
-/
set_option autoImplicit false

namespace PlainJson.Document

open PlainJson.Grammar PlainJson.Text

/-- The values read are the supported ones, and each of them is read back from every compact way to
write it, of which there is at least one. -/
theorem read_compact (x : Value) :
    ((∃ s, read s = .ok x) ↔ x.Supported) ∧
      (x.Supported → (∃ cs, Compact cs x) ∧
        ∀ cs, Compact cs x → read (String.ofList cs) = .ok x) := by
  have hback : x.Supported → ∀ cs, Compact cs x → read (String.ofList cs) = .ok x := by
    intro hx cs hc
    refine read_of_derives ?_
    rw [String.toList_ofList]
    exact hc.derives hx
  refine ⟨⟨fun hh => ?_, fun hx => ?_⟩, fun hx => ⟨exists_compact hx, hback hx⟩⟩
  · obtain ⟨s, hs⟩ := hh
    exact (derives_of_read hs).supported
  · obtain ⟨cs, hc⟩ := exists_compact hx
    exact ⟨_, hback hx cs hc⟩

/-- The members need not be in the order of the keys. -/
theorem read_compact_swapped :
    Value.Supported (.dict [("a", .list [.null]), ("b", .int 7)]) ∧
      Compact "\x7b\"b\":7,\"a\":[null]\x7d".toList (.dict [("a", .list [.null]), ("b", .int 7)]) ∧
      read (String.ofList "\x7b\"b\":7,\"a\":[null]\x7d".toList) =
        .ok (.dict [("a", .list [.null]), ("b", .int 7)]) := by
  have h₇ : 7 < 10 ^ maxDigits :=
    Nat.lt_of_lt_of_le (by decide) (Nat.pow_le_pow_right (by decide) (by decide : 1 ≤ maxDigits))
  have hx : Value.Supported (.dict [("a", .list [.null]), ("b", .int 7)]) := by
    refine .dict (by simp) ?_ (by decide) fun e he => ?_
    · exact .cons (by decide) (.cons (by simp) .nil)
    · simp only [List.mem_cons, List.not_mem_nil, or_false] at he
      rcases he with rfl | rfl
      · exact .list (by simp) fun y hy => List.mem_singleton.1 hy ▸ .null
      · exact .int h₇
  have hseven : Compact ['7'] (.int (7 : Nat)) := by
    have hd := Compact.int 7
    rwa [decimal_eq, if_pos (by decide)] at hd
  have ha : CompactMember Compact _ ("a", .list [.null]) := .pair (.list (.one .null))
  have hb : CompactMember Compact _ ("b", .int 7) := .pair hseven
  have hc := Compact.dict (List.Perm.swap _ _ []) (.more hb (.one ha))
  exact ⟨hx, hc, ((read_compact _).2 hx).2 _ hc⟩

end PlainJson.Document
