import PlainJson.Proofs.Document.Acceptance
import PlainJson.Proofs.Grammar.Longest

/-!
What is said of a text that is no document. Reading goes as far as the longest part at the front
that is a document by itself; if there is none, nothing but the white space at the front is taken.
Only overlong digits at a place for a value end it by a fault.
-/
set_option autoImplicit false

namespace PlainJson.Document

open PlainJson.Grammar PlainJson.Parser PlainJson.Text

/-- The first `n` characters are a document. -/
def Heads (s : List Char) (n : Nat) : Prop := n ≤ s.length ∧ ∃ x, Derives (s.take n) x

/-- The first `n` characters are a document, and no more of them are one. -/
def HeadsMost (s : List Char) (n : Nat) : Prop := Heads s n ∧ ∀ m, Heads s m → m ≤ n

variable {s : String} {x : Value} {e : Fault} {n : Nat} {cs t : List Char}

theorem heads_append (h : Derives cs x) : Heads (cs ++ t) cs.length :=
  ⟨by simp, x, by simpa using h⟩

theorem read_of_overlong (h : Overlong s.toList n) :
    read s = .error (.fault (.tooManyDigits n)) := by
  rw [← View.rest_ofString s] at h
  exact read_of_faults (value_faults_of_overlong (View.within_ofString s) h)

theorem overlong_of_read (h : read s = .error (.fault e)) :
    ∃ n, Overlong s.toList n ∧ e = .tooManyDigits n := by
  have hv := verdict_read s
  rw [h] at hv
  cases hv with
  | overlong ho => exact ⟨_, ho, rfl⟩

/-- Without overlong digits, a text is read, or it is refused with one of two reasons. -/
theorem read_of_not_overlong (h : ∀ n, ¬ Overlong s.toList n) :
    (∃ x, read s = .ok x) ∨
      ∃ r, read s = .error (.rejected r) ∧ (r.reason = .unmatched ∨ r.reason = .trailing) := by
  have hv := verdict_read s
  generalize read s = r at hv
  cases hv with
  | whole => exact .inl ⟨_, rfl⟩
  | part => exact .inr ⟨_, rfl, .inr rfl⟩
  | none => exact .inr ⟨_, rfl, .inl rfl⟩
  | overlong ho => exact (h _ ho).elim

/-- No fault in a text that has no room for overlong digits. -/
theorem read_ne_fault (h : s.length ≤ maxDigits) : read s ≠ .error (.fault e) := by
  intro hr
  obtain ⟨n, ⟨u, d, t, hs, -, -, hl, -⟩, -⟩ := overlong_of_read hr
  have hlen := congrArg List.length hs
  rw [String.length_toList] at hlen
  simp only [List.length_append] at hlen
  omega

/-- A document at the front is part of one that nothing lengthens. -/
theorem longer_of_heads (h : Heads cs n) (hn : ∀ n, ¬ Overlong cs n) :
    ∃ ds u y, cs = ds ++ u ∧ n ≤ ds.length ∧ Derives ds y ∧ Ends ds u := by
  obtain ⟨hl, x, hx⟩ := h
  rw [← List.take_append_drop n cs] at hn
  obtain ⟨ds, u, y, hu, hy, he⟩ := exists_longer hx hn
  refine ⟨_, u, y, ?_, ?_, hy, he⟩
  · rw [List.append_assoc, ← hu, List.take_append_drop]
  · simp only [List.length_append, List.length_take]
    omega

theorem headsMost_of_ends (h : Derives cs x) (he : Ends cs t) (hn : ∀ n, ¬ Overlong (cs ++ t) n) :
    HeadsMost (cs ++ t) cs.length := by
  refine ⟨heads_append h, fun m hm => ?_⟩
  obtain ⟨ds, u, y, hu, hl, hy, hd⟩ := longer_of_heads hm hn
  rwa [(derives_front h hy he hd hu).1]

/-- The longest part at the front that is a document decides: all of the text is the document read,
less leaves the rest behind, and if there is none, nothing is taken but white space. -/
theorem read_longest (s : String) (h : ∀ n, read s ≠ .error (.fault (.tooManyDigits n))) :
    ((∀ n, ¬ Heads s.toList n) →
        read s = .error (.rejected ⟨.unmatched, s.toList.dropWhile isBlank⟩)) ∧
      ((∃ n, Heads s.toList n) → ∃ n, HeadsMost s.toList n ∧
        (n = s.toList.length → ∃ x, Derives s.toList x ∧ read s = .ok x) ∧
        (n < s.toList.length → read s = .error (.rejected ⟨.trailing, s.toList.drop n⟩) ∧
          s.toList.drop n ≠ [] ∧ ClearOf isBlank (s.toList.drop n))) ∧
      ∀ default, (∀ x, read s = .ok x → readOr (.text s) default = .ok x) ∧
        ∀ r, read s = .error (.rejected r) → readOr (.text s) default = .ok default := by
  have hn : ∀ n, ¬ Overlong s.toList n := fun n ho => h n (read_of_overlong ho)
  have hv := verdict_read s
  refine ⟨fun hh => ?_, fun hh => ?_, fun default => ⟨fun x hx => ?_, fun r hr => ?_⟩⟩
  · generalize read s = r at hv
    cases hv with
    | whole hd => exact (hh _ ⟨Nat.le_refl _, _, by rwa [List.take_length]⟩).elim
    | part hs hd => exact (hh _ (hs ▸ heads_append hd)).elim
    | none hs hl ht => rw [hs, dropWhile_stretch hl ht]
    | overlong ho => exact (hn _ ho).elim
  · generalize read s = r at hv
    cases hv with
    | whole hd =>
      have hm : HeadsMost s.toList s.toList.length :=
        ⟨⟨Nat.le_refl _, _, by rwa [List.take_length]⟩, fun m hm => hm.1⟩
      exact ⟨_, hm, fun _ => ⟨_, hd, rfl⟩, fun hl => (Nat.lt_irrefl _ hl).elim⟩
    | @part cs t x hs hd he ht =>
      rw [hs] at hn ⊢
      refine ⟨_, headsMost_of_ends hd he hn, fun hl => ?_, fun _ => ?_⟩
      · have hp := List.length_pos_iff.2 ht
        rw [List.length_append] at hl
        omega
      · rw [List.drop_left]
        exact ⟨rfl, ht, he.1⟩
    | none _ _ _ hp =>
      obtain ⟨n, hh⟩ := hh
      obtain ⟨ds, u, y, hs, -, hy, he⟩ := longer_of_heads hh hn
      exact (hp ds u y hs hy he).elim
    | overlong ho => exact (hn _ ho).elim
  · simp [readOr, readGiven, orDefault, hx]
  · simp [readOr, readGiven, orDefault, hr]

/-- A document with something behind it. -/
theorem read_longest_array :
    (∀ n, read "[1] 2" ≠ .error (.fault (.tooManyDigits n))) ∧ HeadsMost "[1] 2".toList 4 ∧
      read "[1] 2" = .error (.rejected ⟨.trailing, ['2']⟩) := by
  have hl : ∀ n, read "[1] 2" ≠ .error (.fault (.tooManyDigits n)) :=
    fun n => read_ne_fault (by decide)
  have hone : Bare ['1'] (.int (decimalValue ['1'])) :=
    .number (by simp) (by decide) (by simp [Char.isDigit])
  have harr := Bare.array (.one (Padded.of_bare hone))
  have hd : Derives ['[', '1', ']', ' '] (.list [.int 1]) :=
    @Padded.pad _ Bare [] ['[', '1', ']'] [' '] _ allOf_nil harr (by simp; rfl)
  obtain ⟨n, hn, hall, hpart⟩ := (read_longest "[1] 2" hl).2.1 ⟨4, by decide, _, hd⟩
  have hge : 4 ≤ n := hn.2 4 ⟨by decide, _, hd⟩
  have hle : n ≤ 5 := hn.1.1
  have hne : n ≠ 5 := by
    intro h
    obtain ⟨x, -, hx⟩ := hall h
    cases hx
  obtain rfl : n = 4 := by omega
  exact ⟨hl, hn, (hpart (by decide)).1⟩

/-- Reading ends with a value, with one of two refusals, or by a fault; the last exactly if digits
are overlong, and then the default does not help. -/
theorem read_without_fault_iff (s : String) (default : Value) :
    (((∃ x, read s = .ok x) ∨
        ∃ r, read s = .error (.rejected r) ∧ (r.reason = .unmatched ∨ r.reason = .trailing)) ↔
      ∀ n, ¬ Overlong s.toList n) ∧
    ((∃ x, readOr (.text s) default = .ok x) ↔ ∀ n, ¬ Overlong s.toList n) ∧
    ∀ n, Overlong s.toList n →
      read s = .error (.fault (.tooManyDigits n)) ∧
        readOr (.text s) default = .error (.fault (.tooManyDigits n)) := by
  refine ⟨⟨fun hh n hn => ?_, read_of_not_overlong⟩, ⟨fun hh n hn => ?_, fun hn => ?_⟩,
    fun n hn => ⟨read_of_overlong hn, ?_⟩⟩
  · rw [read_of_overlong hn] at hh
    rcases hh with ⟨x, hx⟩ | ⟨r, hr, -⟩
    · cases hx
    · cases hr
  · obtain ⟨x, hx⟩ := hh
    simp [readOr, readGiven, orDefault, read_of_overlong hn] at hx
  · rcases read_of_not_overlong hn with ⟨x, hx⟩ | ⟨r, hr, -⟩
    · exact ⟨x, by simp [readOr, readGiven, orDefault, hx]⟩
    · exact ⟨default, by simp [readOr, readGiven, orDefault, hr]⟩
  · simp [readOr, readGiven, orDefault, read_of_overlong hn]

end PlainJson.Document
