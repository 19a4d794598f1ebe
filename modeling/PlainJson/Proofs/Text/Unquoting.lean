import Mathlib.Algebra.Ring.Nat
import PlainJson.Text.Quoted

/-!
Reading quoted text back. An escape tells by its first character how long it is, so the text between
the delimiters can be taken apart in one way only; and since no delimiter and no backslash stands in
it by itself, quoted text gives back whatever was quoted.
-/
set_option autoImplicit false

namespace PlainJson.Text

/-- The value of a hexadecimal digit in either case. -/
def hexValue? (c : Char) : Option Nat :=
  if c.isDigit then some (c.toNat - 48)
  else if 'a' ≤ c ∧ c ≤ 'f' then some (c.toNat - 87)
  else if 'A' ≤ c ∧ c ≤ 'F' then some (c.toNat - 55)
  else none

def hexNumber? (s : List Char) : Option Nat :=
  s.foldl (fun n c => n.bind fun n => (hexValue? c).map fun d => 16 * n + d) (some 0)

/-- The character that has the code which the first `width` characters show, and what follows. -/
def readCode (width : Nat) (s : List Char) : Option (Char × List Char) :=
  if s.length < width then none
  else (hexNumber? (s.take width)).map fun n => (Char.ofNat n, s.drop width)

/-- The character that an escape stands for, and what follows; the backslash is already read. -/
def readEscape : List Char → Option (Char × List Char)
  | [] => none
  | c :: s =>
    if c = '\\' ∨ c = '\x27' ∨ c = '"' then some (c, s)
    else if c = 'n' then some ('\n', s)
    else if c = 'r' then some ('\r', s)
    else if c = 't' then some ('\t', s)
    else if c = 'x' then readCode 2 s
    else if c = 'u' then readCode 4 s
    else if c = 'U' then readCode 8 s
    else none

/-- The text up to the delimiter `q`, which ends it. -/
def unescape (q : Char) : Nat → List Char → Option (List Char)
  | steps + 1, c :: s =>
    if c = q then (if s = [] then some [] else none)
    else if c = '\\' then
      (readEscape s).bind fun r => (unescape q steps r.2).map fun t => r.1 :: t
    else (unescape q steps s).map fun t => c :: t
  | _, _ => none

/-- The text that a quoted text shows. -/
def unquote : List Char → Option (List Char)
  | q :: s => if q = '\x27' ∨ q = '"' then unescape q s.length s else none
  | [] => none

variable {q c d : Char} {n width : Nat}

theorem hexValue?_digitChar (h : n < 16) : hexValue? (digitChar n) = some n := by
  have hs : ∀ k : Fin 16, hexValue? (digitChar k.val) = some k.val := by decide
  exact hs ⟨n, h⟩

theorem hexNumber?_concat (s : List Char) (c : Char) :
    hexNumber? (s ++ [c]) =
      (hexNumber? s).bind fun n => (hexValue? c).map fun d => 16 * n + d := by
  simp [hexNumber?]

theorem hexNumber?_fixedDigits (h : n < 16 ^ width) :
    hexNumber? (fixedDigits 16 width n) = some n := by
  induction width generalizing n with
  | zero =>
    obtain rfl : n = 0 := by simpa using h
    rfl
  | succ width ih =>
    have hdiv : n / 16 < 16 ^ width := by
      rw [Nat.pow_succ] at h
      exact Nat.div_lt_of_lt_mul (by rwa [Nat.mul_comm] at h)
    rw [fixedDigits, hexNumber?_concat, ih hdiv, hexValue?_digitChar (Nat.mod_lt n (by decide))]
    simp only [Option.bind_some, Option.map_some, Nat.div_add_mod]

theorem readCode_fixedDigits (h : c.toNat < 16 ^ width) (s : List Char) :
    readCode width (fixedDigits 16 width c.toNat ++ s) = some (c, s) := by
  have hl := length_fixedDigits 16 width c.toNat
  have hlong : ¬(fixedDigits 16 width c.toNat ++ s).length < width := by
    rw [List.length_append, hl]
    omega
  rw [readCode, if_neg hlong, List.take_left' hl, List.drop_left' hl, hexNumber?_fixedDigits h,
    Option.map_some, Char.ofNat_toNat]

theorem isPrintable_digitChar (h : n < 16) : isPrintable (digitChar n) = true := by
  have hs : ∀ k : Fin 16, isPrintable (digitChar k.val) = true := by decide +kernel
  exact hs ⟨n, h⟩

theorem isPrintable_fixedDigits : ∀ d ∈ fixedDigits 16 width n, isPrintable d = true := by
  induction width generalizing n with
  | zero => exact nofun
  | succ width ih =>
    rw [fixedDigits, List.forall_mem_append]
    have hlast := isPrintable_digitChar (Nat.mod_lt n (by decide : 0 < 16))
    exact ⟨ih, List.forall_mem_singleton.2 hlast⟩

/-- After its backslash, what stands for the character `c` is printable and is read back as `c`. -/
structure Spells (c : Char) (t : List Char) : Prop where
  printable : ∀ d ∈ t, isPrintable d = true
  read : ∀ s, readEscape (t ++ s) = some (c, s)

theorem spells_singleton (hp : isPrintable d = true) (hr : ∀ s, readEscape (d :: s) = some (c, s)) :
    Spells c [d] :=
  ⟨List.forall_mem_singleton.2 hp, hr⟩

/-- Only the widths differ between the three kinds of code. -/
theorem spells_code (hm : isPrintable d = true) (h : c.toNat < 16 ^ width)
    (hr : ∀ s, readEscape (d :: s) = readCode width s) :
    Spells c (d :: fixedDigits 16 width c.toNat) where
  printable := List.forall_mem_cons.2 ⟨hm, isPrintable_fixedDigits⟩
  read s := by rw [List.cons_append, hr, readCode_fixedDigits h]

theorem exists_spells_code (c : Char) : ∃ t, escapeCode c.toNat = '\\' :: t ∧ Spells c t := by
  have hc : c.toNat < 16 ^ 8 := by
    have hv := c.valid
    simp only [UInt32.isValidChar, Nat.isValidChar] at hv
    simp only [Char.toNat]
    omega
  unfold escapeCode
  split
  · rename_i h
    exact ⟨_, rfl, spells_code (by decide +kernel) h fun _ => rfl⟩
  · split
    · rename_i h
      exact ⟨_, rfl, spells_code (by decide +kernel) h fun _ => rfl⟩
    · exact ⟨_, rfl, spells_code (by decide +kernel) hc fun _ => rfl⟩

/-- A character stands in quoted text as itself, or is spelled after a backslash. -/
theorem escape_cases (hq : q = '\x27' ∨ q = '"') (c : Char) :
    (escape q c = [c] ∧ isPrintable c = true ∧ c ≠ q ∧ c ≠ '\\') ∨
      ∃ t, escape q c = '\\' :: t ∧ Spells c t := by
  unfold escape
  split
  · rename_i hc
    have hmark : c = '\\' ∨ c = '\x27' ∨ c = '"' := by
      obtain rfl | rfl := hc
      · exact .inr hq
      · exact .inl rfl
    have hp : isPrintable c = true := by
      obtain rfl | rfl | rfl := hmark <;> decide +kernel
    exact .inr ⟨_, rfl, spells_singleton hp fun s => by rw [readEscape, if_pos hmark]⟩
  · rename_i hc
    obtain ⟨hcq, hcb⟩ := not_or.1 hc
    split
    · subst c
      exact .inr ⟨_, rfl, spells_singleton (by decide +kernel) fun _ => rfl⟩
    · split
      · subst c
        exact .inr ⟨_, rfl, spells_singleton (by decide +kernel) fun _ => rfl⟩
      · split
        · subst c
          exact .inr ⟨_, rfl, spells_singleton (by decide +kernel) fun _ => rfl⟩
        · split
          · exact .inl ⟨rfl, ‹_›, hcq, hcb⟩
          · exact .inr (exists_spells_code c)

theorem isPrintable_escape (hq : q = '\x27' ∨ q = '"') (c : Char) :
    ∀ d ∈ escape q c, isPrintable d = true := by
  have hback : isPrintable '\\' = true := by decide +kernel
  obtain ⟨he, hp, -, -⟩ | ⟨t, he, ht⟩ := escape_cases hq c
  · rw [he]
    exact List.forall_mem_singleton.2 hp
  · rw [he]
    exact List.forall_mem_cons.2 ⟨hback, ht.printable⟩

theorem length_escape_pos (hq : q = '\x27' ∨ q = '"') (c : Char) : 0 < (escape q c).length := by
  obtain ⟨he, -⟩ | ⟨t, he, -⟩ := escape_cases hq c <;> simp [he]

/-- Reading an escaped character back takes one step. -/
theorem unescape_escape (hq : q = '\x27' ∨ q = '"') (c : Char) (steps : Nat) (s : List Char) :
    unescape q (steps + 1) (escape q c ++ s) = (unescape q steps s).map fun t => c :: t := by
  obtain ⟨he, -, hcq, hcb⟩ | ⟨t, he, ht⟩ := escape_cases hq c
  · rw [he, List.singleton_append, unescape, if_neg hcq, if_neg hcb]
  · -- Since no delimiter is a backslash, a backslash always begins an escape.
    have hback : '\\' ≠ q := by
      rintro rfl
      simp at hq
    rw [he, List.cons_append, unescape, if_neg hback, if_pos rfl, ht.read, Option.bind_some]

theorem unescape_flatMap (hq : q = '\x27' ∨ q = '"') (s : List Char) {steps : Nat}
    (h : s.length < steps) : unescape q steps (s.flatMap (escape q) ++ [q]) = some s := by
  induction s generalizing steps with
  | nil =>
    obtain ⟨k, rfl⟩ := Nat.exists_eq_add_of_lt h
    simp [unescape]
  | cons c s ih =>
    obtain ⟨k, rfl⟩ := Nat.exists_eq_add_of_lt h
    have hs : s.length < (c :: s).length + k := by
      rw [List.length_cons]
      omega
    rw [List.flatMap_cons, List.append_assoc, unescape_escape hq, ih hs]
    rfl

theorem length_le_flatMap_escape (hq : q = '\x27' ∨ q = '"') (s : List Char) :
    s.length ≤ (s.flatMap (escape q)).length := by
  induction s with
  | nil => exact Nat.le_refl _
  | cons c s ih =>
    have hc := length_escape_pos hq c
    rw [List.flatMap_cons, List.length_append, List.length_cons]
    omega

/-- Quoted text gives back what was quoted. -/
theorem unquote_quote (s : List Char) : unquote (quote s) = some s := by
  have hq := (delimiter_eq s).symm
  have hlength := length_le_flatMap_escape hq s
  rw [quote, List.cons_append, unquote, if_pos hq]
  refine unescape_flatMap hq s ?_
  rw [List.length_append, List.length_singleton]
  omega

/-- Quoted text is printable, whatever was quoted. -/
theorem isPrintable_quote (s : List Char) : ∀ d ∈ quote s, isPrintable d = true := by
  have hq : isPrintable (delimiter s) = true := by
    obtain h | h := delimiter_eq s <;> rw [h] <;> decide +kernel
  intro d hd
  simp only [quote, List.mem_append, List.mem_cons, List.mem_flatMap, List.not_mem_nil,
    or_false] at hd
  obtain (rfl | ⟨c, -, hd⟩) | rfl := hd
  · exact hq
  · exact isPrintable_escape (delimiter_eq s).symm c d hd
  · exact hq

theorem quote_injective {s t : List Char} (h : quote s = quote t) : s = t := by
  have hs := unquote_quote s
  rw [h, unquote_quote] at hs
  exact (Option.some.inj hs).symm

/-- The characters of the general category Cc. -/
def isControl (c : Char) : Bool :=
  decide (c.toNat < 0x20) || (decide (0x7f ≤ c.toNat) && decide (c.toNat < 0xa0))

/-- The characters that end a line: some control characters, and the two separators of Unicode. -/
def endsLine (c : Char) : Bool :=
  [0xa, 0xb, 0xc, 0xd, 0x1c, 0x1d, 0x1e, 0x85, 0x2028, 0x2029].contains c.toNat

/-- A character that takes a place on a line and does not end it. -/
structure Inline (c : Char) : Prop where
  printable : isPrintable c = true
  notControl : isControl c = false
  notEnd : endsLine c = false

theorem inTable_control (h : isControl c = true) : inTable unprintableTable c.toNat = true := by
  have hfirst : unprintableTable = ⟨0x0, 0x1f⟩ :: ⟨0x7f, 0xa0⟩ :: unprintableTable.drop 2 := rfl
  simp only [isControl, Bool.or_eq_true, Bool.and_eq_true, decide_eq_true_eq] at h
  rw [hfirst]
  by_cases hlow : c.toNat ≤ 0x1f
  · simp [inTable, hlow]
  · have hrange : ¬c.toNat < 0x7f ∧ c.toNat ≤ 0xa0 := by omega
    simp [inTable, hlow, hrange]

theorem inTable_separator (h : endsLine c = true) : inTable unprintableTable c.toNat = true := by
  have hall : ∀ n ∈ [0xa, 0xb, 0xc, 0xd, 0x1c, 0x1d, 0x1e, 0x85, 0x2028, 0x2029],
      inTable unprintableTable n = true := by
    decide +kernel
  exact hall _ (List.contains_iff_mem.1 h)

/-- What is printable is neither a control character nor the end of a line. -/
theorem inline_of_printable (h : isPrintable c = true) : Inline c where
  printable := h
  notControl := eq_false_of_ne_true fun hc => by simp [isPrintable, inTable_control hc] at h
  notEnd := eq_false_of_ne_true fun hc => by simp [isPrintable, inTable_separator hc] at h

end PlainJson.Text
