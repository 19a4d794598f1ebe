import PlainJson.Proofs.Grammar.Reading

/-!
The tokens of a text: single characters of white space, brackets, commas and colons, keywords, texts
between double quotes, and digits up to the last one in a row. A text is divided into tokens in at
most one way, so each of its places is either between two tokens or inside a certain one.
-/
set_option autoImplicit false

namespace PlainJson.Grammar

open PlainJson.Text

inductive Shape where
  | blank | mark | keyword | quoted | digits
  deriving DecidableEq, Repr

def marks : List Char := ['[', ']', '\x7b', '\x7d', ',', ':']

def keywords : List (List Char) := ["null".toList, "true".toList, "false".toList]

/-- The characters that make a token of each shape. -/
inductive Shape.Fits : Shape → List Char → Prop where
  | blank {c : Char} : isBlank c = true → Fits .blank [c]
  | mark {c : Char} : c ∈ marks → Fits .mark [c]
  | keyword {cs : List Char} : cs ∈ keywords → Fits .keyword cs
  | quoted {cs : List Char} : '"' ∉ cs → Fits .quoted ('"' :: cs ++ ['"'])
  | digits {ds : List Char} : ds ≠ [] → AllOf Char.isDigit ds → Fits .digits ds

structure Token where
  shape : Shape
  raw : List Char
  fits : shape.Fits raw

def Token.blank (c : Char) (h : isBlank c = true) : Token := ⟨.blank, [c], .blank h⟩

def Token.mark (c : Char) (h : c ∈ marks) : Token := ⟨.mark, [c], .mark h⟩

def text (ts : List Token) : List Char := ts.flatMap Token.raw

/-- What follows does not lengthen the token. -/
def Token.Stops (t : Token) (s : List Char) : Prop := t.shape = .digits → ClearOf Char.isDigit s

/-- The text is divided into these tokens. -/
inductive Scanned : List Char → List Token → Prop where
  | nil : Scanned [] []
  | cons {t : Token} {s : List Char} {ts : List Token} :
      t.Stops s → Scanned s ts → Scanned (t.raw ++ s) (t :: ts)

/-- The place before the character `n` is between two characters of one token. -/
def Inside (s : List Char) (n : Nat) : Prop :=
  ∃ us t vs, Scanned s (us ++ t :: vs) ∧
    (text us).length < n ∧ n < (text us).length + t.raw.length

/-- The character `n` is a double quote or between two that belong together. -/
def InQuoted (s : List Char) (n : Nat) : Prop :=
  ∃ us t vs, Scanned s (us ++ t :: vs) ∧ t.shape = .quoted ∧
    (text us).length ≤ n ∧ n < (text us).length + t.raw.length

section
variable {k : Shape} {t u : Token} {ts us vs ws : List Token} {cs r s : List Char} {n : Nat}

@[simp] theorem text_nil : text [] = [] := rfl

@[simp] theorem text_cons : text (t :: ts) = t.raw ++ text ts := by simp [text]

@[simp] theorem text_append : text (ts ++ us) = text ts ++ text us := by simp [text]

theorem Scanned.blank {c : Char} (hc : isBlank c = true) (h : Scanned s ts) :
    Scanned (c :: s) (.blank c hc :: ts) :=
  .cons (t := .blank c hc) (fun hd => by cases hd) h

theorem Scanned.mark {c : Char} (hc : c ∈ marks) (h : Scanned s ts) :
    Scanned (c :: s) (.mark c hc :: ts) :=
  .cons (t := .mark c hc) (fun hd => by cases hd) h

/-- A token that nothing follows. -/
theorem scanned_single (t : Token) : Scanned t.raw [t] := by
  have h := Scanned.cons (t := t) (fun _ => clearOf_nil) .nil
  rwa [List.append_nil] at h

theorem not_isDigit_of_mem_marks {c : Char} (h : c ∈ marks) : c.isDigit = false := by
  have hall : marks.all (fun d => d.isDigit == false) = true := by decide
  simpa using List.all_eq_true.1 hall c h

/-- The first character tells the shape of a token. -/
def shapeOf (c : Char) : Shape :=
  if isBlank c then .blank
  else if c ∈ marks then .mark
  else if c = '"' then .quoted
  else if c.isDigit then .digits
  else .keyword

theorem shapeOf_of_isDigit {c : Char} (h : c.isDigit = true) : shapeOf c = .digits := by
  have hb := not_isBlank_of_isDigit h
  have hm : c ∉ marks := by
    intro hc
    rw [not_isDigit_of_mem_marks hc] at h
    cases h
  have hq : c ≠ '"' := by
    rintro rfl
    cases h
  simp [shapeOf, hb, hm, hq, h]

theorem Shape.Fits.head (h : k.Fits cs) : ∃ c ds, cs = c :: ds ∧ shapeOf c = k := by
  cases h with
  | blank hb => exact ⟨_, _, rfl, if_pos hb⟩
  | mark hm =>
    have hall : marks.all (fun c => shapeOf c == .mark) = true := by decide
    exact ⟨_, _, rfl, by simpa using List.all_eq_true.1 hall _ hm⟩
  | keyword hk =>
    simp only [keywords, List.mem_cons, List.not_mem_nil, or_false] at hk
    rcases hk with rfl | rfl | rfl
    · exact ⟨'n', _, rfl, rfl⟩
    · exact ⟨'t', _, rfl, rfl⟩
    · exact ⟨'f', _, rfl, rfl⟩
  | quoted => exact ⟨_, _, rfl, rfl⟩
  | digits hn ha =>
    obtain ⟨c, ds, rfl⟩ := List.exists_cons_of_ne_nil hn
    exact ⟨c, ds, rfl, shapeOf_of_isDigit (allOf_cons.1 ha).1⟩

theorem Token.shape_unique (h : t.raw ++ r = u.raw ++ s) : t.shape = u.shape := by
  obtain ⟨c, cs, hc, ht⟩ := t.fits.head
  obtain ⟨d, ds, hd, hu⟩ := u.fits.head
  rw [hc, hd] at h
  rw [← ht, ← hu, (List.cons.inj h).1]

theorem keyword_unique {cs ds : List Char} (hc : cs ∈ keywords) (hd : ds ∈ keywords)
    (h : cs ++ r = ds ++ s) : cs = ds := by
  have hall : ∀ cs ∈ keywords, ∀ ds ∈ keywords, cs.head? = ds.head? → cs = ds := by decide
  have hne : ∀ cs ∈ keywords, cs ≠ [] := by decide
  obtain ⟨c, cs', rfl⟩ := List.exists_cons_of_ne_nil (hne cs hc)
  obtain ⟨d, ds', rfl⟩ := List.exists_cons_of_ne_nil (hne ds hd)
  exact hall _ hc _ hd (congrArg some (List.cons.inj h).1)

/-- A text begins with one token. -/
theorem Token.unique (ht : t.Stops r) (hu : u.Stops s) (h : t.raw ++ r = u.raw ++ s) :
    t = u ∧ r = s := by
  have hk := Token.shape_unique h
  obtain ⟨k, cs, hc⟩ := t
  obtain ⟨k', ds, hd⟩ := u
  obtain rfl : k = k' := hk
  suffices hs : cs = ds by
    subst hs
    exact ⟨rfl, List.append_cancel_left h⟩
  cases hc with
  | blank => cases hd with | blank => exact congrArg (fun c => [c]) (List.cons.inj h).1
  | mark => cases hd with | mark => exact congrArg (fun c => [c]) (List.cons.inj h).1
  | keyword hc => cases hd with | keyword hd => exact keyword_unique hc hd h
  | @quoted cs hc =>
    cases hd with
    | @quoted ds hd =>
      -- Both go on to the next double quote.
      have hac := allOf_bne.2 hc
      have had := allOf_bne.2 hd
      have he : cs ++ '"' :: r = ds ++ '"' :: s := by simpa using h
      rw [(stretch_unique hac (clearOf_cons.2 rfl) had (clearOf_cons.2 rfl) he).1]
  | digits _ hc =>
    cases hd with
    | digits _ hd => exact (stretch_unique hc (ht rfl) hd (hu rfl) h).1

theorem Token.raw_ne_nil (t : Token) : t.raw ≠ [] := by
  obtain ⟨c, ds, hc, -⟩ := t.fits.head
  simp [hc]

theorem Token.length_pos (t : Token) : 0 < t.raw.length :=
  List.length_pos_iff.2 t.raw_ne_nil

theorem Scanned.text_eq (h : Scanned s ts) : text ts = s := by
  induction h with
  | nil => rfl
  | cons _ _ ih => rw [text_cons, ih]

theorem Scanned.unique (ht : Scanned s ts) (hu : Scanned s us) : ts = us := by
  induction ht generalizing us with
  | nil =>
    cases us with
    | nil => rfl
    | cons u us =>
      have hn := List.append_ne_nil_of_left_ne_nil u.raw_ne_nil (text us)
      exact (hn (text_cons.symm.trans hu.text_eq)).elim
  | @cons t s ts hs _ ih =>
    generalize hr : t.raw ++ s = r at hu
    cases hu with
    | nil => exact (List.append_ne_nil_of_left_ne_nil t.raw_ne_nil s hr).elim
    | cons hs' hu =>
      obtain ⟨rfl, rfl⟩ := Token.unique hs hs' hr
      rw [ih hu]

theorem Scanned.append (h : Scanned s ts) (hu : Scanned r us) (hc : ClearOf Char.isDigit r) :
    Scanned (s ++ r) (ts ++ us) := by
  induction h with
  | nil => exact hu
  | @cons t s ts hs _ ih =>
    rw [List.append_assoc]
    refine .cons (fun hd => ?_) ih
    -- Only the last token has the second text next to it.
    cases s with
    | nil => exact hc
    | cons c s => exact clearOf_cons.2 (clearOf_cons.1 (hs hd))

/-- Every character belongs to a token. -/
theorem exists_token (h : n < (text ts).length) : ∃ us t vs, ts = us ++ t :: vs ∧
    (text us).length ≤ n ∧ n < (text us).length + t.raw.length := by
  induction ts generalizing n with
  | nil => simp at h
  | cons u ts ih =>
    by_cases hn : n < u.raw.length
    · exact ⟨[], u, ts, rfl, by simp, by simpa using hn⟩
    · simp only [text_cons, List.length_append] at h
      obtain ⟨us, t, vs, rfl, hl, hr⟩ := ih (n := n - u.raw.length) (by omega)
      have hlen : (text (u :: us)).length = u.raw.length + (text us).length := by simp
      exact ⟨u :: us, t, vs, rfl, by omega, by omega⟩

theorem length_text_cons_le (h : us ++ t :: vs = ws ++ ts) (hn : us.length < ws.length) :
    (text us).length + t.raw.length ≤ (text ws).length := by
  obtain ⟨as, rfl⟩ : ∃ as, ws = us ++ t :: as := by
    rcases List.append_eq_append_iff.1 h with ⟨as, rfl, he⟩ | ⟨as, rfl, he⟩
    · cases as with
      | nil => simp at hn
      | cons a as =>
        obtain ⟨rfl, -⟩ := List.cons.inj he
        exact ⟨as, rfl⟩
    · simp only [List.length_append] at hn
      omega
  simp only [text_append, text_cons, List.length_append]
  omega

/-- No character belongs to two tokens. -/
theorem token_unique {us' vs' : List Token} (h : us ++ t :: vs = us' ++ u :: vs')
    (hl : (text us).length ≤ n) (hr : n < (text us).length + t.raw.length)
    (hl' : (text us').length ≤ n) (hr' : n < (text us').length + u.raw.length) :
    us = us' ∧ t = u := by
  have hn : us.length = us'.length := by
    by_cases hlt : us.length < us'.length
    · have := length_text_cons_le h hlt
      omega
    · by_cases hgt : us'.length < us.length
      · have := length_text_cons_le h.symm hgt
        omega
      · omega
  obtain ⟨rfl, ht⟩ := List.append_inj h hn
  exact ⟨rfl, (List.cons.inj ht).1⟩

/-- The end of a token is not inside any. -/
theorem Scanned.not_inside (h : Scanned s (us ++ vs)) : ¬ Inside s (text us).length := by
  rintro ⟨us', u, vs', hs, hl, hr⟩
  have he := h.unique hs
  -- The text ends here, or another token begins here and has this character to itself.
  cases vs with
  | nil =>
    have ht := congrArg (fun ts => (text ts).length) he
    simp only [List.append_nil, text_append, text_cons, List.length_append] at ht
    omega
  | cons t vs =>
    have := t.length_pos
    obtain ⟨rfl, -⟩ := token_unique he (Nat.le_refl _) (by omega) (by omega) hr
    omega

theorem Scanned.not_inQuoted (h : Scanned s (us ++ t :: vs)) (hk : t.shape ≠ .quoted)
    (hl : (text us).length ≤ n) (hr : n < (text us).length + t.raw.length) : ¬ InQuoted s n := by
  rintro ⟨us', u, vs', hs, hq, hl', hr'⟩
  obtain ⟨rfl, rfl⟩ := token_unique (h.unique hs) hl hr hl' hr'
  exact hk hq

/-- What is not inside a token is the end of some. -/
theorem Scanned.exists_boundary (h : Scanned s ts) (hn : n ≤ s.length) (hi : ¬ Inside s n) :
    ∃ us vs, ts = us ++ vs ∧ (text us).length = n := by
  rcases Nat.lt_or_eq_of_le hn with hlt | rfl
  · rw [← h.text_eq] at hlt
    obtain ⟨us, t, vs, rfl, hl, hr⟩ := exists_token hlt
    refine ⟨us, t :: vs, rfl, ?_⟩
    rcases Nat.lt_or_eq_of_le hl with hlt | he
    · exact (hi ⟨us, t, vs, h, hlt, hr⟩).elim
    · exact he
  · exact ⟨ts, [], (List.append_nil ts).symm, by rw [h.text_eq]⟩

end

end PlainJson.Grammar
