import PlainJson.Proofs.Grammar.Places
import PlainJson.Proofs.Interchange.Quotes

/-!
What a place for a value is good for: any value fits there, and with brackets behind it the text
becomes a document. So a place is outside of all texts in double quotes, and there is none behind
what no document begins with, nor behind a document that ends.
-/
set_option autoImplicit false

namespace PlainJson.Grammar

open PlainJson.Parser PlainJson.Text PlainJson.Interchange

/-- At the end of `u`, before `d`, a value is looked for, and the digits `d` are all that are there
and too many. -/
structure OverlongAt (s u d w : List Char) : Prop where
  text : s = u ++ d ++ w
  place : Place u
  digits : AllOf Char.isDigit d
  long : maxDigits < d.length
  clear : ClearOf Char.isDigit w

/-- Between `p` and `t` no value is looked for: inside a text or a key, behind something that no
document begins with, or behind a document that nothing lengthens. -/
inductive Elsewhere : List Char → List Char → Prop where
  | inText {p t : List Char} : p.count '"' % 2 = 1 → Elsewhere p t
  | afterError {q r t : List Char} : (∀ u x, ¬ Derives (q ++ u) x) → Elsewhere (q ++ r) t
  | trailing {q r t : List Char} {x : Value} :
      Derives q x → Ends q (r ++ t) → Elsewhere (q ++ r) t

section
variable {α : Type} {D : List Char → α → Prop} {cs vs : List Char} {a : α} {b : Bool}

theorem Each.separated (h : Each D vs) (hd : D cs a) : ∃ as, Separated D (vs ++ cs) as := by
  induction h with
  | nil => exact ⟨[a], .one hd⟩
  | @cons ds es b hb _ ih =>
    obtain ⟨as, hs⟩ := ih
    refine ⟨b :: as, ?_⟩
    rw [List.append_assoc, List.cons_append]
    exact .more hb hs

theorem Each.eq_nil_or_comma (h : Each D vs) : vs = [] ∨ ∃ ds, vs = ds ++ [','] := by
  induction h with
  | nil => exact .inl rfl
  | @cons cs ds _ _ _ ih =>
    rcases ih with rfl | ⟨es, rfl⟩
    · exact .inr ⟨cs, rfl⟩
    · exact .inr ⟨cs ++ ',' :: es, by simp⟩

/-- A reader who knows no escapes is inside of a text behind an odd number of double quotes. -/
theorem count_of_paired (h : Paired b cs) : cs.count '"' % 2 = if b then 1 else 0 := by
  induction h with
  | done => rfl
  | pass hq _ _ ih => rwa [List.count_cons_of_ne hq]
  | @quote b cs _ ih =>
    rw [List.count_cons_self]
    cases b
    · simp only [Bool.not_false, if_true] at ih
      simp only [Bool.false_eq_true, if_false]
      omega
    · simp only [Bool.not_true, Bool.false_eq_true, if_false] at ih
      simp only [if_true]
      omega
  | keep hq _ ih => rwa [List.count_cons_of_ne hq]

theorem paired_of_each (h : ∀ ds b, D ds b → Paired false ds) (hs : Each D cs) :
    Paired false cs := by
  induction hs with
  | nil => exact .done
  | cons hd _ ih => exact (h _ _ hd).append (.pass (by decide) (by decide) ih)

end

section
variable {u v w d s t : List Char} {x : Value} {n : Nat}

theorem overlong_iff : Overlong s n ↔ ∃ u d w, OverlongAt s u d w ∧ n = d.length := by
  refine ⟨fun hh => ?_, fun hh => ?_⟩
  · obtain ⟨u, d, w, hs, hu, hd, hl, hw, hn⟩ := hh
    exact ⟨u, d, w, ⟨hs, hu, hd, hl, hw⟩, hn⟩
  · obtain ⟨u, d, w, h, hn⟩ := hh
    exact ⟨u, d, w, h.text, h.place, h.digits, h.long, h.clear, hn⟩

/-- A value at a place, and what closes the brackets before it, make a document. -/
theorem Place.completes (h : Place u) (hx : Derives v x) : ∃ t y, Derives (u ++ v ++ t) y := by
  induction h generalizing v x with
  | @start l hl => exact ⟨[], x, hx.widen hl allOf_nil⟩
  | @item c vs l _ hs hl ih =>
    have hv : Derives (l ++ v ++ []) x := hx.widen hl allOf_nil
    rw [List.append_nil] at hv
    obtain ⟨xs, hi⟩ := hs.separated hv
    obtain ⟨t, y, hy⟩ := ih (Padded.of_bare (.array hi))
    exact ⟨']' :: t, y, by simpa using hy⟩
  | @member c ms ks l k _ hs hk hl ih =>
    have hv : Derives (l ++ v ++ []) x := hx.widen hl allOf_nil
    rw [List.append_nil] at hv
    obtain ⟨es, hi⟩ := hs.separated (.pair hk hv)
    obtain ⟨t, y, hy⟩ := ih (Padded.of_bare (.object hi (keepsLast_entriesOf es)))
    exact ⟨'\x7d' :: t, y, by simpa using hy⟩

theorem Place.paired (h : Place u) : Paired false u := by
  have hd : ∀ ds y, Derives ds y → Paired false ds :=
    fun _ _ => paired_of_padded fun _ _ => paired_of_bare
  have hb : ∀ {l : List Char}, AllOf isBlank l → Paired false l := paired_of_all rfl rfl
  induction h with
  | start hl => exact hb hl
  | item _ hs hl ih =>
    exact (ih.append (.pass (by decide) (by decide) (paired_of_each hd hs))).append (hb hl)
  | member _ hs hk hl ih =>
    have hm := paired_of_each (fun _ _ => paired_of_member hd) hs
    have hq := paired_of_padded (fun _ _ => paired_of_quoted) hk
    exact ((ih.append (.pass (by decide) (by decide) hm)).append hq).append
      (.pass (by decide) (by decide) (hb hl))

/-- White space at the end does not make a digit the last character. -/
theorem last_append_blank {l : List Char} (hl : AllOf isBlank l)
    (hu : ∀ c ∈ u.getLast?, c.isDigit = false) :
    ∀ c ∈ (u ++ l).getLast?, c.isDigit = false := by
  intro c hc
  rcases List.eq_nil_or_concat l with rfl | ⟨k, b, rfl⟩
  · rw [List.append_nil] at hc
    exact hu c hc
  · rw [List.concat_eq_append, ← List.append_assoc, List.getLast?_concat] at hc
    cases hc
    exact not_isDigit_of_isBlank (hl c (by simp))

/-- Digits at a place do not go on with digits before it. -/
theorem Place.last (h : Place u) : ∀ c ∈ u.getLast?, c.isDigit = false := by
  cases h with
  | start hl => exact last_append_blank (u := []) hl (by simp)
  | @item c vs l _ hs hl =>
    refine last_append_blank hl fun b hb => ?_
    rcases hs.eq_nil_or_comma with rfl | ⟨ds, rfl⟩
    · rw [List.getLast?_concat] at hb
      cases hb
      rfl
    · rw [← List.cons_append, ← List.append_assoc, List.getLast?_concat] at hb
      cases hb
      rfl
  | @member c ms ks l k _ _ _ hl =>
    have hc := last_append_blank (u := c ++ '\x7b' :: ms ++ ks ++ [':']) hl fun b hb => by
      rw [List.getLast?_concat] at hb
      cases hb
      rfl
    simpa using hc

/-- A document that nothing lengthens is read, whatever comes after it. -/
theorem Derives.not_overlong (h : Derives v x) (he : Ends v t) : ¬ Overlong (v ++ t) n := by
  intro ho
  obtain ⟨z, hv, hr⟩ := View.exists_view (v ++ t)
  obtain ⟨w, hs, rfl⟩ := View.exists_spans hv hr
  rw [← hr] at ho
  exact (value_completes h hs he).not_faults (value_faults_of_overlong hv ho)

theorem OverlongAt.not_nil (h : OverlongAt s u d w) : d ≠ [] := by
  rintro rfl
  exact Nat.not_lt_zero _ h.long

/-- Of what comes after the digits only the next character matters. -/
theorem OverlongAt.instead {b r : List Char} (h : OverlongAt s u d (b ++ r)) (hb : b ≠ [])
    (t : List Char) : OverlongAt (u ++ d ++ (b ++ t)) u d (b ++ t) := by
  exact ⟨rfl, h.place, h.digits, h.long, (clearOf_append hb).2 ((clearOf_append hb).1 h.clear)⟩

/-- No place is further to the right than overlong digits at a place. -/
theorem OverlongAt.eq_nil_of_place {a r : List Char} (h : OverlongAt s u d w) (hp : Place (u ++ a))
    (hs : s = u ++ a ++ r) : a = [] := by
  have hd : d ++ w = a ++ r := by
    have ht := h.text
    rw [hs, List.append_assoc, List.append_assoc] at ht
    exact (List.append_cancel_left ht).symm
  by_cases hn : a = []
  · exact hn
  · have hlast : (a.getLast hn).isDigit = false :=
      hp.last _ (by simp [List.getLast?_append, List.getLast?_eq_some_getLast hn])
    rcases List.append_eq_append_iff.1 hd with ⟨b, rfl, rfl⟩ | ⟨b, rfl, -⟩
    · -- The digits lie before the place, so they are overlong in a document as well.
      have hb : b ≠ [] := by
        rintro rfl
        simp only [List.append_nil] at hlast
        rw [h.digits _ (List.getLast_mem h.not_nil)] at hlast
        cases hlast
      obtain ⟨t, y, hy⟩ := hp.completes (Padded.of_bare .null)
      have hf : u ++ (d ++ b) ++ "null".toList ++ t = u ++ d ++ (b ++ ("null".toList ++ t)) := by
        simp
      rw [hf] at hy
      have hno := hy.not_overlong (ends_nil _) (n := d.length)
      rw [List.append_nil] at hno
      exact (hno (overlong_iff.2 ⟨u, d, _, h.instead hb _, rfl⟩)).elim
    · rw [(allOf_append.1 h.digits).1 _ (List.getLast_mem hn)] at hlast
      cases hlast

theorem OverlongAt.unique {u' d' w' : List Char} (h : OverlongAt s u d w)
    (h' : OverlongAt s u' d' w') : u' = u ∧ d' = d ∧ w' = w := by
  have hu : u' = u := by
    have ht := h'.text
    rw [h.text, List.append_assoc, List.append_assoc] at ht
    rcases List.append_eq_append_iff.1 ht with ⟨a, rfl, hr⟩ | ⟨a, rfl, hr⟩
    · rw [h.eq_nil_of_place h'.place (h'.text.trans (List.append_assoc _ _ _)), List.append_nil]
    · rw [h'.eq_nil_of_place h.place (h.text.trans (List.append_assoc _ _ _)), List.append_nil]
  subst hu
  have ht := h'.text
  rw [h.text, List.append_assoc, List.append_assoc] at ht
  obtain ⟨rfl, rfl⟩ :=
    stretch_unique h.digits h.clear h'.digits h'.clear (List.append_cancel_left ht)
  exact ⟨rfl, rfl, rfl⟩

/-- Where no value is looked for, there is no place. -/
theorem Elsewhere.not_overlongAt (h : Elsewhere u (d ++ w)) : ¬ OverlongAt s u d w := by
  intro ho
  cases h with
  | inText hq =>
    have he := count_of_paired ho.place.paired
    rw [hq] at he
    cases he
  | @afterError q r _ hn =>
    obtain ⟨t, y, hy⟩ := ho.place.completes (Padded.of_bare .null)
    exact hn (r ++ "null".toList ++ t) y (by simpa using hy)
  | @trailing q r _ x hx he =>
    refine hx.not_overlong he (n := d.length) (overlong_iff.2 ⟨q ++ r, d, w, ?_, rfl⟩)
    exact ⟨by simp, ho.place, ho.digits, ho.long, ho.clear⟩

end

end PlainJson.Grammar
