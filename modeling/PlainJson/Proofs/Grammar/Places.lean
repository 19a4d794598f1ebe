import PlainJson.Proofs.Grammar.Reading

/-!
The places in a text where a value is looked for, and the only thing that ends reading by a fault:
digits at such a place, more than a number may have. What comes after them does not matter, not even
whether the brackets before them are ever closed.
-/
set_option autoImplicit false

namespace PlainJson.Grammar

open PlainJson.Parser PlainJson.Text

/-- Any number of texts with a comma behind each. -/
inductive Each {α : Type} (D : List Char → α → Prop) : List Char → Prop where
  | nil : Each D []
  | cons {cs ds : List Char} {a : α} : D cs a → Each D ds → Each D (cs ++ ',' :: ds)

/-- The texts behind which a value is looked for. -/
inductive Place : List Char → Prop where
  | start {l : List Char} : AllOf isBlank l → Place l
  | item {c vs l : List Char} :
      Place c → Each Derives vs → AllOf isBlank l → Place (c ++ '[' :: vs ++ l)
  | member {c ms ks l : List Char} {k : String} :
      Place c → Each (Member Derives) ms → Padded Quoted ks k → AllOf isBlank l →
        Place (c ++ '\x7b' :: ms ++ ks ++ ':' :: l)

/-- At a place for a value, there are `n` digits and no more, and these are too many. -/
def Overlong (s : List Char) (n : Nat) : Prop :=
  ∃ u d t, s = u ++ d ++ t ∧ Place u ∧ AllOf Char.isDigit d ∧ maxDigits < d.length ∧
    ClearOf Char.isDigit t ∧ n = d.length

section
variable {α : Type} {D E : List Char → α → Prop} {cs : List Char} {as : List α}

theorem Each.imp (h : ∀ cs a, D cs a → E cs a) (hs : Each D cs) : Each E cs := by
  induction hs with
  | nil => exact .nil
  | cons hd _ ih => exact .cons (h _ _ hd) ih

theorem Separated.each (h : Separated D cs as) : Each D (cs ++ [',']) := by
  induction h with
  | one hd => exact .cons hd .nil
  | more hd _ ih =>
    rw [List.append_assoc, List.cons_append]
    exact .cons hd ih

variable {p : Parser α} {v w : View} {e : Fault}

theorem Reads.separateBy_faults (hr : Reads p D) (hp : p.Advances) (hv : v.Within)
    (h : (Parser.separateBy p ",").Faults v e) : ∃ cs w, v.Spans cs w ∧ Each D cs ∧ p.Faults w e := by
  rcases (Parser.separateBy_faults hp hv).1 h with hf | ⟨a, x, bs, y, ha, hb, hf⟩
  · exact ⟨[], v, View.Spans.refl hv, .nil, hf⟩
  · obtain ⟨cs, hs, hd⟩ := hr v a x hv ha
    obtain ⟨ds, ht, hd⟩ := hr.repeats hb hs hd
    obtain ⟨z, hz, hf⟩ := (behind_faults ht.within_next).1 hf
    exact ⟨_, z, ht.trans hz, hd.each, hf⟩

theorem separateBy_faults_behind (hp : p.Advances) (h : Each (Completes p) cs)
    (hs : v.Spans cs w) (hf : p.Faults w e) : (separateBy p ",").Faults v e := by
  induction h generalizing v with
  | nil =>
    obtain ⟨hv, rfl⟩ := View.spans_nil.1 hs
    exact (Parser.separateBy_faults hp hv).2 (.inl hf)
  | @cons cs ds a ha _ ih =>
    obtain ⟨x, hx, hs⟩ := hs.split
    obtain ⟨y, hc, hs⟩ := @View.Spans.split x w [','] ds hs
    have hfx : Follows x.rest := ⟨',', y.rest, hc.ahead, .inl rfl⟩
    have hax := ha v x hx hfx
    rcases (Parser.separateBy_faults hp hs.within).1 (ih hs) with hy | ⟨b, z, bs, u, hb, hbs, hu⟩
    · have hfb : (behind "," p).Faults x e := (behind_faults hc.within).2 ⟨y, hc, hy⟩
      exact (Parser.separateBy_faults hp hx.within).2 (.inr ⟨a, x, [], x, hax, .nil x, hfb⟩)
    · have hbx : (behind "," p).Yields x b z := (behind_yields hc.within).2 ⟨y, hc, hb⟩
      exact (Parser.separateBy_faults hp hx.within).2
        (.inr ⟨a, x, b :: bs, u, hax, .cons hbx hbs, hu⟩)

end

section
variable {v w z : View} {e : Fault} {c u : List Char}

theorem Place.within_item {l vs : List Char} (hl : AllOf isBlank l) (hs : Each Derives vs)
    (h : Place u) : Place (l ++ '[' :: vs ++ u) := by
  induction h with
  | start hr => exact .item (.start hl) hs hr
  | item _ ht hr ih =>
    have hp := Place.item ih ht hr
    simpa using hp
  | member _ ht hk hr ih =>
    have hp := Place.member ih ht hk hr
    simpa using hp

theorem Place.within_member {l ms ks : List Char} {k : String} (hl : AllOf isBlank l)
    (hs : Each (Member Derives) ms) (hq : Padded Quoted ks k) (h : Place u) :
    Place (l ++ '\x7b' :: ms ++ ks ++ ':' :: u) := by
  induction h with
  | start hr => exact .member (.start hl) hs hq hr
  | item _ ht hr ih =>
    have hp := Place.item ih ht hr
    simpa using hp
  | member _ ht hk hr ih =>
    have hp := Place.member ih ht hk hr
    simpa using hp

/-- White space in front changes nothing. -/
theorem value_faults_blank {l : List Char} (hl : AllOf isBlank l) (hs : v.Spans l w)
    (hf : value.Faults w e) : value.Faults v e := by
  obtain ⟨r, y, k, hr, hbr, hc, hk⟩ := (value_faults hs.within_next).1 hf
  exact (value_faults hs.within).2 ⟨l ++ r, y, k, hs.trans hr, allOf_append.2 ⟨hl, hbr⟩, hc, hk⟩

theorem value_faults_of_rule {k : Kind} {d : Char} {t : List Char} (hv : v.Within)
    (hr : v.rest = d :: t) (hd : isBlank d = false) (hf : (rule .standard value k).Faults v e) :
    value.Faults v e :=
  (value_faults hv).2 ⟨[], v, k, View.Spans.refl hv, allOf_nil, by simp [hr, hd], hf⟩

theorem member_faults_behind {ks : List Char} {k : String} (hq : Padded Quoted ks k)
    (hs : v.Spans (ks ++ [':']) w) (hf : value.Faults w e) : (member value).Faults v e :=
  pair_faults.2 (.inr ⟨w, k, colon_completes hq hs, hf⟩)

theorem key_not_faults (hv : v.Within) : ¬ (wrapBlank string).Faults v e := by
  intro h
  obtain ⟨l, x, hl, -, -, hf⟩ := (wrapBlank_faults string_advances.forward hv).1 h
  exact string_not_faults hl.within_next hf

theorem place_of_member_faults (hv : v.Within) (h : (member value).Faults v e) :
    ∃ ks k w, v.Spans (ks ++ [':']) w ∧ Padded Quoted ks k ∧ value.Faults w e := by
  rcases pair_faults.1 h with hf | ⟨w, k, hy, hf⟩
  · rcases left_faults.1 hf with hf | ⟨_, _, _, hf⟩
    · exact (key_not_faults hv hf).elim
    · exact (literal_not_faults hf).elim
  · obtain ⟨y, _, hk, hc⟩ := left_yields.1 hy
    obtain ⟨ks, hs, hq⟩ := reads_string.wrapBlank v k y hv hk
    exact ⟨ks, k, w, hs.trans ((literal_yields hs.within_next).1 hc), hq, hf⟩

theorem Derives.completes {x : Value} (h : Derives c x) : Completes value c x :=
  fun _ _ hs hf => value_completes h hs (hf.ends c)

theorem Place.value_faults_at (h : Place u) (hs : v.Spans u w) (hf : value.Faults w e) :
    value.Faults v e := by
  induction h generalizing v w with
  | start hl => exact value_faults_blank hl hs hf
  | @item c vs l _ ht hl ih =>
    obtain ⟨z, hz, hlz⟩ := hs.split
    obtain ⟨y, hy, hvs⟩ := hz.split
    obtain ⟨x, ho, hvs⟩ := @View.Spans.split y z ['['] vs hvs
    have hi := separateBy_faults_behind value_advances (ht.imp fun _ _ hd => hd.completes) hvs
      (value_faults_blank hl hlz hf)
    have hk : (rule .standard value .array).Faults y e :=
      map_faults.2 ((wrap_faults ho.within).2 ⟨x, ho, hi⟩)
    exact ih hy (value_faults_of_rule ho.within ho.ahead rfl hk)
  | @member c ms ks l k _ ht hq hl ih =>
    have hs' : v.Spans (c ++ '\x7b' :: (ms ++ (ks ++ [':'])) ++ l) w := by simpa using hs
    obtain ⟨z, hz, hlz⟩ := hs'.split
    obtain ⟨y, hy, hms⟩ := hz.split
    obtain ⟨x, ho, hms⟩ := @View.Spans.split y z ['\x7b'] _ hms
    obtain ⟨b, hb, hkb⟩ := hms.split
    have hm := member_faults_behind hq hkb (value_faults_blank hl hlz hf)
    have hi := separateBy_faults_behind (member_advances value_advances.forward)
      (ht.imp fun _ _ hm => member_completes (hm.imp fun _ _ hd => hd.completes)) hb hm
    have hk : (rule .standard value .object).Faults y e :=
      map_faults.2 ((wrap_faults ho.within).2 ⟨x, ho, map_faults.2 hi⟩)
    exact ih hy (value_faults_of_rule ho.within ho.ahead rfl hk)

theorem value_faults_of_overlong {n : Nat} (hv : v.Within) (h : Overlong v.rest n) :
    value.Faults v (.tooManyDigits n) := by
  obtain ⟨u, d, t, hr, hu, hd, hl, ht, rfl⟩ := h
  rw [List.append_assoc] at hr
  obtain ⟨w, hs, hdt⟩ := View.exists_spans hv hr
  obtain ⟨x, hsd, rfl⟩ := View.exists_spans hs.within_next hdt
  have hn : number.Faults w (.tooManyDigits d.length) :=
    (number_faults hsd.within).2 ⟨d, x, hsd, hl, hd, ht, rfl⟩
  have hk : (rule .standard value .number).Faults w _ := map_faults.2 hn
  refine hu.value_faults_at hs ?_
  cases d with
  | nil => simp at hl
  | cons c d =>
    exact value_faults_of_rule hsd.within hdt (not_isBlank_of_isDigit (allOf_cons.1 hd).1) hk

/-- A fault inside an item or a member is a fault at a place further to the right. -/
theorem overlong_of_value_faults (hv : v.Within) (h : value.Faults v e) :
    ∃ n, Overlong v.rest n ∧ e = .tooManyDigits n := by
  induction hn : v.room using Nat.strongRecOn generalizing v with
  | ind n ih =>
    obtain ⟨l, y, k, hl, hbl, hcl, hk⟩ := (value_faults hv).1 h
    cases k with
    | null => exact (literal_not_faults (map_faults.1 hk)).elim
    | bool => exact (bool_not_faults hl.within_next hk).elim
    | string => exact (string_not_faults hl.within_next (map_faults.1 hk)).elim
    | number =>
      obtain ⟨d, w, hd, hlen, ha, hc, rfl⟩ := (number_faults hl.within_next).1 (map_faults.1 hk)
      refine ⟨d.length, ⟨l, d, w.rest, ?_, .start hbl, ha, hlen, hc, rfl⟩, rfl⟩
      rw [hl.ahead, hd.ahead, List.append_assoc]
    | array =>
      obtain ⟨x, ho, hi⟩ := (wrap_faults hl.within_next).1 (map_faults.1 hk)
      obtain ⟨vs, z, hvs, hd, hf⟩ := (reads_valueIn .standard).separateBy_faults value_advances
        ho.within_next hi
      have hlt : z.room < n := hn ▸ ((hl.trans ho).trans hvs).room_lt (by simp)
      obtain ⟨m, ⟨u, d, t, hr, hu, hrest⟩, he⟩ := ih z.room hlt hvs.within_next hf rfl
      refine ⟨m, ⟨l ++ '[' :: vs ++ u, d, t, ?_, hu.within_item hbl hd, hrest⟩, he⟩
      rw [hl.ahead, ho.ahead, hvs.ahead, hr]
      simp
    | object =>
      have hm := member_advances value_advances.forward
      obtain ⟨x, ho, hi⟩ := (wrap_faults hl.within_next).1 (map_faults.1 hk)
      obtain ⟨ms, z, hms, hd, hf⟩ := (reads_member (reads_valueIn .standard)).separateBy_faults hm
        ho.within_next (map_faults.1 hi)
      obtain ⟨ks, key, y, hks, hq, hf⟩ := place_of_member_faults hms.within_next hf
      have hlt : y.room < n := hn ▸ (((hl.trans ho).trans hms).trans hks).room_lt (by simp)
      obtain ⟨m, ⟨u, d, t, hr, hu, hrest⟩, he⟩ := ih y.room hlt hks.within_next hf rfl
      refine ⟨m, ⟨l ++ '\x7b' :: ms ++ ks ++ ':' :: u, d, t, ?_,
        hu.within_member hbl hd hq, hrest⟩, he⟩
      rw [hl.ahead, ho.ahead, hms.ahead, hks.ahead, hr]
      simp

theorem value_faults_iff (hv : v.Within) :
    value.Faults v e ↔ ∃ n, Overlong v.rest n ∧ e = .tooManyDigits n := by
  refine ⟨overlong_of_value_faults hv, fun hh => ?_⟩
  obtain ⟨n, ho, rfl⟩ := hh
  exact value_faults_of_overlong hv ho

end

end PlainJson.Grammar
