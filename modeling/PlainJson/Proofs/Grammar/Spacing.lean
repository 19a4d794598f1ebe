import PlainJson.Proofs.Grammar.Derivation
import PlainJson.Proofs.Grammar.Tokens

/-!
White space between tokens. What a text derives is decided by its other tokens: the same ones in the
same order derive the same value, whatever white space stands before, between and behind them.
-/
set_option autoImplicit false

namespace PlainJson.Grammar

open PlainJson.Text

variable {α β γ : Type}

def visible (ts : List Token) : List Token := ts.filter fun t => t.shape != .blank

/-- These tokens derive the value, with any white space around them. -/
def Loose (D : List Char → α → Prop) (ts : List Token) (a : α) : Prop :=
  ∀ us, visible us = ts → D (text us) a

/-- The text is divided into tokens, and those that are not white space derive the value. -/
def Spreads (D : List Char → α → Prop) (cs : List Char) (a : α) : Prop :=
  ∃ ts, Scanned cs ts ∧ Loose D (visible ts) a

section
variable {t : Token} {ts us vs : List Token} {cs l : List Char} {c : Char} {n : Nat}

@[simp] theorem visible_nil : visible [] = [] := rfl

@[simp] theorem visible_append : visible (ts ++ us) = visible ts ++ visible us := by
  simp [visible]

theorem visible_cons (h : t.shape ≠ .blank) : visible (t :: ts) = t :: visible ts := by
  simp [visible, h]

@[simp] theorem visible_mark (h : c ∈ marks) :
    visible (.mark c h :: ts) = .mark c h :: visible ts := rfl

theorem visible_cons_blank (h : t.shape = .blank) : visible (t :: ts) = visible ts := by
  simp [visible, h]

theorem Token.blank_of_shape (h : t.shape = .blank) : ∃ c, t.raw = [c] ∧ isBlank c = true := by
  obtain ⟨k, cs, hf⟩ := t
  obtain rfl : k = .blank := h
  cases hf with
  | blank hb => exact ⟨_, rfl, hb⟩

theorem allOf_of_visible_eq_nil (h : visible ts = []) : AllOf isBlank (text ts) := by
  intro c hc
  obtain ⟨t, ht, hm⟩ := List.mem_flatMap.1 hc
  obtain ⟨d, hd, hb⟩ := Token.blank_of_shape (by simpa using List.filter_eq_nil_iff.1 h t ht)
  rw [hd, List.mem_singleton] at hm
  rwa [hm]

theorem visible_eq_append_cons (h : visible us = ts ++ t :: vs) :
    ∃ ls rs, us = ls ++ t :: rs ∧ visible ls = ts ∧ visible rs = vs := by
  obtain ⟨as, bs, rfl, ha, hb⟩ := List.filter_eq_append_iff.1 h
  obtain ⟨ls, rs, rfl, hl, -, hr⟩ := List.filter_eq_cons_iff.1 hb
  refine ⟨as ++ ls, rs, (List.append_assoc _ _ _).symm, ?_, hr⟩
  have hn : visible ls = [] := List.filter_eq_nil_iff.2 hl
  rw [visible_append, hn, List.append_nil]
  exact ha

theorem visible_eq_cons (h : visible us = t :: vs) :
    ∃ ls rs, us = ls ++ t :: rs ∧ AllOf isBlank (text ls) ∧ visible rs = vs := by
  rw [← List.nil_append (t :: vs)] at h
  obtain ⟨ls, rs, rfl, hl, hr⟩ := visible_eq_append_cons h
  exact ⟨ls, rs, rfl, allOf_of_visible_eq_nil hl, hr⟩

/-- White space in front. -/
theorem scanned_blanks (h : AllOf isBlank l) (hs : Scanned cs ts) :
    ∃ ls, Scanned (l ++ cs) (ls ++ ts) ∧ visible ls = [] := by
  induction l with
  | nil => exact ⟨[], hs, rfl⟩
  | cons c l ih =>
    obtain ⟨hc, hl⟩ := allOf_cons.1 h
    obtain ⟨ls, hls, hv⟩ := ih hl
    exact ⟨.blank c hc :: ls, hls.blank hc, hv⟩

theorem exists_blanks (h : AllOf isBlank l) : ∃ ls, text ls = l ∧ visible ls = [] := by
  obtain ⟨ls, hls, hv⟩ := scanned_blanks h .nil
  exact ⟨ls, by simpa using hls.text_eq, hv⟩

/-- White space can be put in at every end of a token. -/
theorem Scanned.exists_put_in (h : Scanned cs ts) (hn : n ≤ cs.length) (hi : ¬ Inside cs n)
    (hb : AllOf isBlank l) :
    ∃ us, text us = cs.take n ++ l ++ cs.drop n ∧ visible us = visible ts := by
  obtain ⟨us, vs, rfl, rfl⟩ := h.exists_boundary hn hi
  obtain ⟨ls, rfl, hv⟩ := exists_blanks hb
  refine ⟨us ++ ls ++ vs, ?_, by simp [hv]⟩
  rw [← h.text_eq]
  simp

theorem not_isBlank_of_mem_marks (h : c ∈ marks) : isBlank c = false := by
  have hall : marks.all (fun d => isBlank d == false) = true := by decide
  simpa using List.all_eq_true.1 hall c h

theorem not_isBlank_of_mem_keyword (hk : cs ∈ keywords) (h : c ∈ cs) : isBlank c = false := by
  have hall : keywords.all (fun ds => ds.all fun d => isBlank d == false) = true := by decide
  simpa using List.all_eq_true.1 (List.all_eq_true.1 hall cs hk) c h

/-- A white space character that is not in double quotes is a token. -/
theorem Token.shape_of_blank_mem (hm : c ∈ t.raw) (hb : isBlank c = true)
    (hq : t.shape ≠ .quoted) : t.shape = .blank := by
  have hnot : isBlank c ≠ false := by simp [hb]
  obtain ⟨k, cs, hf⟩ := t
  cases hf with
  | blank => rfl
  | mark hd => exact (hnot (not_isBlank_of_mem_marks (List.mem_singleton.1 hm ▸ hd))).elim
  | keyword hk => exact (hnot (not_isBlank_of_mem_keyword hk hm)).elim
  | quoted => exact (hq rfl).elim
  | digits _ ha => exact (hnot (not_isBlank_of_isDigit (ha c hm))).elim

/-- White space that is not in double quotes can be taken out. -/
theorem Scanned.exists_take_out (h : Scanned cs ts) (hc : cs[n]? = some c) (hb : isBlank c = true)
    (hq : ¬ InQuoted cs n) : ∃ us, text us = cs.eraseIdx n ∧ visible us = visible ts := by
  obtain ⟨hn, -⟩ := List.getElem?_eq_some_iff.1 hc
  rw [← h.text_eq] at hn
  obtain ⟨us, t, vs, rfl, hl, hr⟩ := exists_token hn
  have hcs : cs = text us ++ (t.raw ++ text vs) := by
    rw [← h.text_eq]
    simp
  have hm : c ∈ t.raw := by
    rw [hcs, List.getElem?_append_right hl, List.getElem?_append_left (by omega)] at hc
    exact List.mem_of_getElem? hc
  have hk := Token.shape_of_blank_mem hm hb fun hk => hq ⟨us, t, vs, h, hk, hl, hr⟩
  obtain ⟨d, hd, -⟩ := Token.blank_of_shape hk
  obtain rfl : n = (text us).length := by
    simp only [hd, List.length_singleton] at hr
    omega
  refine ⟨us ++ vs, ?_, by simp [visible_cons_blank hk]⟩
  rw [hcs, hd, List.eraseIdx_append_of_length_le (Nat.le_refl _)]
  simp

end

section
variable {D : List Char → α → Prop} {E : List Char → β → Prop} {F : List Char → γ → Prop}
  {a : α} {b : β} {d : γ} {c o : Char} {cs ds : List Char}

theorem Spreads.imp {D' : List Char → β → Prop} (h : ∀ ds, D ds a → D' ds b)
    (hs : Spreads D cs a) : Spreads D' cs b := by
  obtain ⟨ts, ht, hl⟩ := hs
  exact ⟨ts, ht, fun us hu => h _ (hl us hu)⟩

theorem spreads_single {k : Shape} (hf : k.Fits cs) (hk : k ≠ .blank) (h : D cs a) :
    Spreads (Padded D) cs a := by
  refine ⟨[⟨k, cs, hf⟩], scanned_single ⟨k, cs, hf⟩, fun us hu => ?_⟩
  rw [visible_cons hk, visible_nil] at hu
  obtain ⟨ls, rs, rfl, hl, hr⟩ := visible_eq_cons hu
  have hp := Padded.pad hl h (allOf_of_visible_eq_nil hr)
  simpa using hp

/-- White space around changes nothing. -/
theorem Spreads.pad (h : Padded (Spreads D) cs a) : Spreads D cs a := by
  cases h with
  | @pad l cs r _ hl hs hr =>
    obtain ⟨ts, ht, hd⟩ := hs
    obtain ⟨rs, hrs, hrv⟩ := scanned_blanks hr .nil
    rw [List.append_nil, List.append_nil] at hrs
    -- A blank behind a number ends it; in front, even a blank next to a digit is on its own.
    have hc : ClearOf Char.isDigit r :=
      fun c hc => not_isDigit_of_isBlank (hr c (List.mem_of_mem_head? hc))
    obtain ⟨ls, hls, hlv⟩ := scanned_blanks hl (ht.append hrs hc)
    refine ⟨ls ++ (ts ++ rs), by rwa [List.append_assoc], ?_⟩
    rwa [visible_append, visible_append, hlv, hrv, List.nil_append, List.append_nil]

/-- Two parts with a mark between them. -/
theorem Spreads.joined (hc : c ∈ marks) (h : ∀ ds es, D ds a → E es b → F (ds ++ c :: es) d)
    (hd : Spreads D cs a) (he : Spreads E ds b) : Spreads F (cs ++ c :: ds) d := by
  obtain ⟨ts, ht, hl⟩ := hd
  obtain ⟨us, hu, hm⟩ := he
  refine ⟨_, ht.append (hu.mark hc) (clearOf_cons.2 (not_isDigit_of_mem_marks hc)), ?_⟩
  intro vs hv
  rw [visible_append, visible_mark] at hv
  obtain ⟨ls, rs, rfl, hvl, hvr⟩ := visible_eq_append_cons hv
  have hj := h _ _ (hl ls hvl) (hm rs hvr)
  simpa [Token.mark] using hj

/-- A part between two marks. -/
theorem Spreads.between (ho : o ∈ marks) (hc : c ∈ marks)
    (h : ∀ ds, D ds a → E (o :: ds ++ [c]) b) (hd : Spreads D cs a) :
    Spreads (Padded E) (o :: cs ++ [c]) b := by
  obtain ⟨ts, ht, hl⟩ := hd
  have he := ht.append (Scanned.nil.mark hc) (clearOf_cons.2 (not_isDigit_of_mem_marks hc))
  refine ⟨_, he.mark ho, ?_⟩
  -- Tokens like these are white space, the first mark, the part's own, the second, white space.
  intro us hu
  rw [visible_mark, visible_append, visible_mark, visible_nil] at hu
  obtain ⟨ls, vs, rfl, hvl, hv⟩ := visible_eq_cons hu
  obtain ⟨ms, rs, rfl, hvm, hvr⟩ := visible_eq_append_cons hv
  have hp := Padded.pad hvl (h _ (hl ms hvm)) (allOf_of_visible_eq_nil hvr)
  simpa [Token.mark] using hp

theorem Spreads.separated {as : List α} (h : Separated (Spreads D) cs as) :
    Spreads (Separated D) cs as := by
  induction h with
  | one hd => exact hd.imp fun _ => .one
  | more hd _ ih => exact .joined (by decide) (fun _ _ => .more) hd ih

end

section
variable {cs : List Char} {k : String} {m : String × Value} {x : Value}

theorem Quoted.spreads {D : List Char → α → Prop} {a : α} (h : Quoted cs k) (hd : D cs a) :
    Spreads (Padded D) cs a := by
  cases h with
  | quoted hn => exact spreads_single (.quoted hn) (by decide) hd

theorem Member.spreads (h : Member (Spreads Derives) cs m) : Spreads (Member Derives) cs m := by
  cases h with
  | pair hk hx =>
    have hs := Spreads.pad (hk.imp fun _ _ hq => hq.spreads hq)
    exact .joined (by decide) (fun _ _ => .pair) hs hx

theorem Bare.spreads (h : Bare cs x) : Spreads Derives cs x := by
  have hp : ∀ cs y, Padded (fun ds z => Bare ds z ∧ Spreads Derives ds z) cs y →
      Spreads Derives cs y :=
    fun _ _ hy => .pad (hy.imp fun _ _ hd => hd.2)
  refine Bare.nested (P := Spreads Derives) ?null ?bool ?string ?number ?array ?object h
  case null => exact spreads_single (.keyword (by decide)) (by decide) .null
  case bool =>
    intro b
    have hk : (if b then "true" else "false").toList ∈ keywords := by cases b <;> decide
    exact spreads_single (.keyword hk) (by decide) (.bool b)
  case string =>
    intro _ _ hq
    exact hq.spreads (.string hq)
  case number =>
    intro _ hn hl ha
    exact spreads_single (.digits hn ha) (by decide) (.number hn hl ha)
  case array =>
    intro _ _ hi
    exact .between (by decide) (by decide) (fun _ => .array) (.separated (hi.imp hp))
  case object =>
    intro _ _ _ hi hk
    have hm := hi.imp fun _ _ hm => (hm.imp hp).spreads
    exact .between (by decide) (by decide) (fun _ hs => .object hs hk) (.separated hm)

/-- A value's tokens other than white space derive it, with any white space around them. -/
theorem Derives.spreads (h : Derives cs x) : Spreads Derives cs x :=
  .pad (h.imp fun _ _ => Bare.spreads)

end

end PlainJson.Grammar
