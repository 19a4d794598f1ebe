import PlainJson.Proofs.Grammar.Derivation
import PlainJson.Proofs.Text.Decimal

/-!
Which values the grammar gives, and how they are written without any white space. What a text
derives is supported at every depth, and whatever is supported is written in a compact way, of which
the grammar derives nothing else.
-/
set_option autoImplicit false

namespace PlainJson

/-- The values of documents. No text in them has a double quote, no number is too long, and nothing
is empty. -/
inductive Value.Supported : Value → Prop where
  | null : Supported .null
  | bool (b : Bool) : Supported (.bool b)
  | int {n : Nat} : n < 10 ^ maxDigits → Supported (.int n)
  | text {s : String} : '"' ∉ s.toList → Supported (.text s)
  | list {xs : List Value} : xs ≠ [] → (∀ x ∈ xs, Supported x) → Supported (.list xs)
  | dict {table : List (String × Value)} :
      table ≠ [] → Sorted table → (∀ e ∈ table, '"' ∉ e.1.toList) →
        (∀ e ∈ table, Supported e.2) → Supported (.dict table)

namespace Grammar

open PlainJson.Text

/-- A key in double quotes, a colon and a value. -/
inductive CompactMember (D : List Char → Value → Prop) : List Char → String × Value → Prop where
  | pair {k : String} {cs : List Char} {x : Value} :
      D cs x → CompactMember D ('"' :: k.toList ++ '"' :: ':' :: cs) (k, x)

/-- Values written without white space, numbers without zeros in front, and the members of a table
in any order. -/
inductive Compact : List Char → Value → Prop where
  | null : Compact "null".toList .null
  | bool (b : Bool) : Compact (if b then "true" else "false").toList (.bool b)
  | int (n : Nat) : Compact (decimal n) (.int n)
  | text (s : String) : Compact ('"' :: s.toList ++ ['"']) (.text s)
  | list {cs : List Char} {xs : List Value} :
      Separated Compact cs xs → Compact ('[' :: cs ++ [']']) (.list xs)
  | dict {cs : List Char} {ms table : List (String × Value)} :
      ms.Perm table → Separated (CompactMember Compact) cs ms →
        Compact ('\x7b' :: cs ++ ['\x7d']) (.dict table)

section
variable {D E : List Char → Value → Prop} {cs : List Char} {x : Value} {k : String}
  {m : String × Value} {ms table : List (String × Value)}

theorem Padded.of_padded {α : Type} {D : List Char → α → Prop} {P : α → Prop} {a : α}
    (h : ∀ cs a, D cs a → P a) (hp : Padded D cs a) : P a := by
  cases hp with
  | pad _ hd _ => exact h _ _ hd

theorem quoted_toList (h : '"' ∉ k.toList) : Quoted ('"' :: k.toList ++ ['"']) k := by
  have hq := Quoted.quoted h
  rwa [String.ofList_toList] at hq

theorem Quoted.not_mem (h : Quoted cs k) : '"' ∉ k.toList := by
  cases h with
  | quoted hn => rwa [String.toList_ofList]

theorem CompactMember.derives (hk : '"' ∉ m.1.toList) (hd : ∀ cs, D cs m.2 → E cs m.2)
    (h : CompactMember D cs m) : Member E cs m := by
  cases h with
  | pair hx =>
    have hm := Member.pair (Padded.of_bare (quoted_toList hk)) (hd _ hx)
    simpa using hm

theorem Member.supported (h : ∀ cs x, D cs x → x.Supported) (hm : Member D cs m) :
    '"' ∉ m.1.toList ∧ m.2.Supported := by
  cases hm with
  | pair hk hd =>
    refine ⟨?_, h _ _ hd⟩
    exact hk.of_padded (P := fun k => '"' ∉ k.toList) fun _ _ => Quoted.not_mem

/-- What is derived is supported, at every depth. -/
theorem Bare.supported (h : Bare cs x) : x.Supported := by
  have hp : ∀ cs y, Padded (fun ds z => Bare ds z ∧ z.Supported) cs y → y.Supported :=
    fun _ _ hy => hy.of_padded fun _ _ hd => hd.2
  refine Bare.nested (P := fun _ x => x.Supported) ?null ?bool ?string ?number ?array ?object h
  case null => exact .null
  case bool => exact .bool
  case string =>
    intro _ _ hq
    exact .text hq.not_mem
  case number =>
    intro ds _ hl ha
    exact .int (Nat.lt_of_lt_of_le (decimalValue_lt ha) (Nat.pow_le_pow_right (by omega) hl))
  case array =>
    intro cs xs hi
    exact .list hi.ne_nil (hi.all hp)
  case object =>
    intro cs ms table hi hk
    have hm : ∀ m ∈ ms, '"' ∉ m.1.toList ∧ m.2.Supported :=
      hi.all fun _ _ => Member.supported hp
    exact .dict (hk.ne_nil hi.ne_nil) hk.sorted (fun e he => (hm e (hk.mem he)).1)
      fun e he => (hm e (hk.mem he)).2

theorem Derives.supported (h : Derives cs x) : x.Supported :=
  h.of_padded fun _ _ => Bare.supported

/-- The order of the members does not count because no key comes twice. -/
theorem Compact.derives (hx : x.Supported) (h : Compact cs x) : Derives cs x := by
  induction hx generalizing cs with
  | null =>
    cases h
    exact Padded.of_bare .null
  | bool b =>
    cases h
    exact Padded.of_bare (.bool b)
  | @int n hn =>
    generalize hi : Value.int n = y at h
    cases h with
    | int m =>
      obtain rfl : n = m := Int.natCast_inj.1 (Value.int.inj hi)
      have hb := Bare.number (decimal_ne_nil n) (length_decimal_le (by decide) hn)
        (allOf_isDigit_decimal n)
      rw [decimalValue_decimal] at hb
      exact Padded.of_bare hb
    | null | bool | text | list | dict => cases hi
  | text hq =>
    cases h
    exact Padded.of_bare (.string (quoted_toList hq))
  | list _ _ ih =>
    cases h with
    | list hs => exact Padded.of_bare (.array (hs.imp_of_mem fun _ y hy => ih y hy))
  | dict _ hs hq _ ih =>
    cases h with
    | @dict cs ms _ hp hm =>
      have hd := hm.imp_of_mem fun _ e he =>
        have ht := hp.mem_iff.1 he
        CompactMember.derives (hq e ht) fun _ => ih e ht
      exact Padded.of_bare (.object hd (keepsLast_of_perm hs hp))

theorem exists_compact (h : x.Supported) : ∃ cs, Compact cs x := by
  induction h with
  | null => exact ⟨_, .null⟩
  | bool b => exact ⟨_, .bool b⟩
  | int => exact ⟨_, .int _⟩
  | text => exact ⟨_, .text _⟩
  | list hn _ ih =>
    obtain ⟨cs, hs⟩ := exists_separated hn ih
    exact ⟨_, .list hs⟩
  | @dict table hn _ _ _ ih =>
    have hm : ∀ e ∈ table, ∃ cs, CompactMember Compact cs e := by
      intro e he
      obtain ⟨cs, hc⟩ := ih e he
      exact ⟨_, .pair hc⟩
    obtain ⟨cs, hs⟩ := exists_separated hn hm
    exact ⟨_, .dict (List.Perm.refl _) hs⟩

end

end Grammar

end PlainJson
