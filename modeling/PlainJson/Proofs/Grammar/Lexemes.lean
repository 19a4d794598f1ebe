import PlainJson.Proofs.Grammar.Rules
import PlainJson.Proofs.Parser.Skipping
import PlainJson.Proofs.Text.Decimal

/-!
The parts of a document that are read character by character. A repetition takes the longest front of
its class. So a text in double quotes goes to the next double quote, or fails at the end for want of
one, and a numeral goes to its last digit.
-/
set_option autoImplicit false

namespace PlainJson

namespace View

/-- Where nothing is ahead is the end of the text. -/
theorem Spans.eq_end {v w : View} {cs : List Char} (hs : v.Spans cs w) (hn : w.rest = []) :
    w = ⟨v.text, v.text.size⟩ := by
  have hw := hs.within_next
  have hr : w.room = 0 := by rw [← length_rest hw, hn, List.length_nil]
  have hp : w.pos = w.text.size := by
    have hle := hw.2
    simp only [room] at hr
    omega
  obtain ⟨text, pos⟩ := w
  obtain rfl : text = v.text := congrArg View.text hs.next
  exact congrArg (View.mk v.text) hp

end View

namespace Grammar

open PlainJson.Parser PlainJson.Text

variable {v : View} {cs ds t : List Char}

theorem silent_string : string.Silent :=
  (silent_literal _).right (((silent_stretch _).map _).left (silent_literal _))

theorem silent_number : number.Silent := (silent_stretch1 _).convert _

theorem string_run (hv : v.Within) (hr : v.rest = '"' :: cs ++ '"' :: t) (hn : '"' ∉ cs) :
    string.run v = .done (.success (v.advance (cs.length + 2)) (String.ofList cs)) := by
  have hs : v.Spans ('"' :: cs ++ ['"']) (v.advance (cs.length + 2)) := by
    have hs := @View.spans_of_rest v ('"' :: cs ++ ['"']) t hv (by simpa using hr)
    have hl : (('"' :: cs ++ ['"']).length : Int) = cs.length + 2 := by
      simp only [List.length_append, List.length_cons, List.length_nil]
      omega
    rwa [hl] at hs
  exact silent_string.run_of_yields ((string_yields hv).2 ⟨_, hs, .quoted hn⟩)

theorem string_run_unopened (hv : v.Within) (hn : ¬ ['"'] <+: v.rest) :
    string.run v = .done (.failure v) :=
  silent_string.run_of_fails ((string_fails hv).2 (.inl ⟨rfl, hn⟩))

theorem string_run_unclosed (hv : v.Within) (hr : v.rest = '"' :: cs) (hn : '"' ∉ cs) :
    string.run v = .done (.failure ⟨v.text, v.text.size⟩) := by
  obtain ⟨w, hs, hw⟩ := @View.exists_spans v ('"' :: cs) [] hv (by simpa using hr)
  rw [← hs.eq_end hw]
  exact silent_string.run_of_fails ((string_fails hv).2 (.inr ⟨cs, hs, hn, hw⟩))

theorem exists_string_yields (hv : v.Within) :
    (∃ s w, string.Yields v s w) ↔ ∃ t, v.rest = '"' :: t ∧ '"' ∈ t := by
  simp only [string_yields hv]
  refine ⟨fun hh => ?_, fun hh => ?_⟩
  · obtain ⟨_, w, _, hs, hq⟩ := hh
    cases hq with
    | @quoted cs hn => exact ⟨cs ++ '"' :: w.rest, by simpa using hs.ahead, by simp⟩
  · obtain ⟨t, hr, hm⟩ := hh
    obtain ⟨cs, u, rfl, hn⟩ := List.eq_append_cons_of_mem hm
    have hy := congrArg Run.ending (string_run hv hr hn)
    exact ⟨_, _, (string_yields hv).1 hy⟩

theorem number_run (hv : v.Within) (hr : v.rest = ds ++ t) (hn : ds ≠ [])
    (hl : ds.length ≤ maxDigits) (hd : AllOf Char.isDigit ds) (ht : ClearOf Char.isDigit t) :
    number.run v = .done (.success (v.advance ds.length) (decimalValue ds)) := by
  have hs := View.spans_of_rest hv hr
  have hw : (v.advance ds.length).rest = t := by
    rw [hs.ahead] at hr
    exact List.append_cancel_left hr
  exact silent_number.run_of_yields ((number_yields hv).2 ⟨ds, hs, hn, hl, hd, hw ▸ ht, rfl⟩)

/-- A repetition of characters of a class yields the longest front of the class, and asking for one
at least fails just where that front is empty, at the view itself. A text in double quotes is yielded
exactly where there is a double quote and another one behind it, and then it is what lies between the
first two; otherwise it fails at the view itself, or at the end if only the second is missing. Digits
are all read, up to the limit, and stand for the number that they write in base ten without the zeros
in front. -/
theorem lexemes_read (f : Char → Bool) (v : View) (hv : v.Within) :
    (∃ cs, LongestFront f v.rest cs ∧
      (many (anyChar.filter f)).run v = .done (.success (v.advance cs.length) cs) ∧
      (many1 (anyChar.filter f)).run v =
        if cs = [] then .done (.failure v) else .done (.success (v.advance cs.length) cs)) ∧
    ((∃ s w, string.Yields v s w) ↔ ∃ t, v.rest = '"' :: t ∧ '"' ∈ t) ∧
    (∀ cs t, v.rest = '"' :: cs ++ '"' :: t → '"' ∉ cs →
      string.run v = .done (.success (v.advance (cs.length + 2)) (String.ofList cs))) ∧
    (¬ ['"'] <+: v.rest → string.run v = .done (.failure v)) ∧
    (∀ cs, v.rest = '"' :: cs → '"' ∉ cs →
      string.run v = .done (.failure ⟨v.text, v.text.size⟩)) ∧
    ∀ zeros ds t, v.rest = List.replicate zeros '0' ++ ds ++ t → AllOf Char.isDigit ds →
      ClearOf Char.isDigit t → 1 ≤ zeros + ds.length → zeros + ds.length ≤ maxDigits →
      number.run v = .done (.success (v.advance (zeros + ds.length))
        (Nat.ofDigits 10 (ds.reverse.map digitValue))) := by
  refine ⟨⟨v.rest.takeWhile f, longestFront_takeWhile f v.rest, stretch_run hv f, ?_⟩,
    exists_string_yields hv, fun _ _ => string_run hv, string_run_unopened hv,
    fun _ => string_run_unclosed hv, ?_⟩
  · rw [stretch1_run hv f, stretch_run hv f]
    rfl
  · intro zeros ds t hr hd ht hpos hmax
    have hlen : (List.replicate zeros '0' ++ ds).length = zeros + ds.length := by simp
    have hall : AllOf Char.isDigit (List.replicate zeros '0' ++ ds) :=
      allOf_append.2 ⟨fun c hc => List.eq_of_mem_replicate hc ▸ rfl, hd⟩
    have hne : List.replicate zeros '0' ++ ds ≠ [] := List.length_pos_iff.1 (by omega)
    rw [number_run hv hr hne (by omega) hall ht, decimalValue_zeros, decimalValue_eq_ofDigits, hlen]
    rfl

theorem lexemes_read_within :
    (View.ofString "[0042,\"a\"b" 1).Within ∧
      number.run (View.ofString "[0042,\"a\"b" 1) =
        .done (.success (View.ofString "[0042,\"a\"b" 5) 42) ∧
      (View.ofString "[0042,\"a\"b" 6).Within ∧
      string.run (View.ofString "[0042,\"a\"b" 6) =
        .done (.success (View.ofString "[0042,\"a\"b" 9) "a") ∧
      (View.ofString "[0042,\"a\"b" 8).Within ∧
      string.run (View.ofString "[0042,\"a\"b" 8) =
        .done (.failure (View.ofString "[0042,\"a\"b" 10)) := by
  have hn : (View.ofString "[0042,\"a\"b" 1).Within := ⟨by decide, by decide⟩
  have hs : (View.ofString "[0042,\"a\"b" 6).Within := ⟨by decide, by decide⟩
  have hu : (View.ofString "[0042,\"a\"b" 8).Within := ⟨by decide, by decide⟩
  obtain ⟨-, -, -, -, -, number⟩ := lexemes_read Char.isDigit _ hn
  obtain ⟨-, -, closed, -⟩ := lexemes_read Char.isDigit _ hs
  obtain ⟨-, -, -, -, unclosed, -⟩ := lexemes_read Char.isDigit _ hu
  refine ⟨hn, ?_, hs, ?_, hu, ?_⟩
  · exact number 2 ['4', '2'] [',', '"', 'a', '"', 'b'] rfl (by simp) (by simp) (by simp)
      (by decide)
  · exact closed ['a'] ['b'] rfl (by decide)
  · exact unclosed ['b'] rfl (by decide)

end Grammar

end PlainJson
