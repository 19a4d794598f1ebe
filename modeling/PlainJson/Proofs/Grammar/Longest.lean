import PlainJson.Proofs.Grammar.Places

/-!
Reading takes as much as it can. If what is ahead begins with a written form, then a form at least
as long is found there, unless digits are overlong. Items with commas between them are read at least
as far as they are written.
-/
set_option autoImplicit false

namespace PlainJson.Grammar

open PlainJson.Parser PlainJson.Text

section
variable {cs t : List Char} {x : Value}

/-- Digits and white space behind a document belong to it as far as they go. -/
theorem exists_longer (h : Derives cs x) (hn : ∀ n, ¬ Overlong (cs ++ t) n) :
    ∃ ds u y, t = ds ++ u ∧ Derives (cs ++ ds) y ∧ Ends (cs ++ ds) u := by
  cases h with
  | @pad l b r _ hl hb hr =>
    by_cases hd : r = [] ∧ ∃ d ∈ b.getLast?, d.isDigit = true
    · obtain ⟨rfl, hlast⟩ := hd
      have hbd := hb.digits_of_last hlast
      obtain ⟨ds, u, rfl, hds, hu⟩ := exists_stretch Char.isDigit t
      obtain ⟨q, u, rfl, hq, hqu⟩ := exists_stretch isBlank u
      have hall : AllOf Char.isDigit (b ++ ds) := allOf_append.2 ⟨hbd, hds⟩
      have hlen : (b ++ ds).length ≤ maxDigits := by
        by_cases hm : maxDigits < (b ++ ds).length
        · refine (hn _ ⟨l, b ++ ds, q ++ u, by simp, .start hl, hall, hm, hu, rfl⟩).elim
        · omega
      obtain ⟨_, c, f, rfl, -⟩ := hb.first
      have hnum := Bare.number (by simp) hlen hall
      have hform : l ++ c :: f ++ [] ++ (ds ++ q) = l ++ (c :: f ++ ds) ++ q := by simp
      have hlong : Derives (l ++ c :: f ++ [] ++ (ds ++ q))
          (.int (decimalValue (c :: f ++ ds))) := by
        rw [hform]
        exact .pad hl hnum hq
      refine ⟨ds ++ q, u, _, by simp, hlong, hqu, fun hd => ?_⟩
      rw [hform] at hd
      obtain ⟨rfl, -⟩ := last_digit_of_padded hnum hq hd
      exact hu
    · obtain ⟨q, u, rfl, hq, hqu⟩ := exists_stretch isBlank t
      have hrq : AllOf isBlank (r ++ q) := allOf_append.2 ⟨hr, hq⟩
      have hform : l ++ b ++ r ++ q = l ++ b ++ (r ++ q) := by simp
      have hlong : Derives (l ++ b ++ r ++ q) x := by
        rw [hform]
        exact .pad hl hb hrq
      refine ⟨q, u, x, rfl, hlong, hqu, fun hdig => ?_⟩
      rw [hform] at hdig
      obtain ⟨hrn, hlast⟩ := last_digit_of_padded hb hrq hdig
      exact (hd ⟨(List.append_eq_nil_iff.1 hrn).1, hlast⟩).elim

end

/-- The parser reads the forms of `D`. Where one of them is ahead, it finds this one or a longer
one, and exactly this one if a comma or a closing bracket follows. -/
structure Greedy {α : Type} (p : Parser α) (D : List Char → α → Prop) : Prop where
  advances : p.Advances
  reads : Reads p D
  completes : ∀ {cs a}, D cs a → Completes p cs a
  finds : ∀ {v cs a w}, D cs a → v.Spans cs w →
    (∃ e, p.Faults v e) ∨ ∃ b u, p.Yields v b u ∧ u.room ≤ w.room

/-- No form of `D` is ahead. -/
def NoneAhead {α : Type} (D : List Char → α → Prop) (v : View) : Prop :=
  ∀ cs a, D cs a → ¬ cs <+: v.rest

/-- From `v` to `w` there are items with commas between them, and no such list leaves less ahead. -/
structure LongestList {α : Type} (D : List Char → α → Prop) (v w : View) : Prop where
  list : ∃ cs as, v.Spans cs w ∧ Separated D cs as
  longest : ∀ {cs as u}, v.Spans cs u → Separated D cs as → w.room ≤ u.room

section
variable {α : Type} {p : Parser α} {D : List Char → α → Prop} {v w u z : View} {cs : List Char}
  {a b : α} {as bs : List α}

theorem Separated.not_noneAhead (h : Separated D cs as) (hs : v.Spans cs w) :
    ¬ NoneAhead D v := by
  obtain ⟨ds, a, t, rfl, hd⟩ := h.head
  obtain ⟨u, hu, -⟩ := hs.split
  exact fun hn => hn ds a hd ⟨u.rest, hu.ahead.symm⟩

theorem LongestList.unique (h : LongestList D v w) (h' : LongestList D v u) : w = u := by
  obtain ⟨cs, as, hs, hd⟩ := h.list
  obtain ⟨ds, bs, hs', hd'⟩ := h'.list
  have hwu := h.longest hs' hd'
  have huw := h'.longest hs hd
  have hw := hs.room_eq
  have hu := hs'.room_eq
  have hl : cs.length = ds.length := by omega
  rw [hs.next, hs'.next, hl]

theorem Greedy.room_le (g : Greedy p D) (hd : D cs a) (hs : v.Spans cs w) (hy : p.Yields v b u) :
    u.room ≤ w.room := by
  rcases g.finds hd hs with ⟨e, he⟩ | ⟨c, z, hz, hr⟩
  · exact (hy.not_faults he).elim
  · obtain ⟨-, rfl⟩ := hy.unique hz
    exact hr

theorem Greedy.noneAhead (g : Greedy p D) (hv : v.Within) (h : p.Fails v w) : NoneAhead D v := by
  intro cs a hd hp
  obtain ⟨t, ht⟩ := hp
  obtain ⟨u, hs, -⟩ := View.exists_spans hv ht.symm
  rcases g.finds hd hs with ⟨e, he⟩ | ⟨b, z, hy, -⟩
  · exact h.not_faults he
  · exact hy.not_fails h

/-- Items with commas between them are read at least as far as they are written. The induction is on
how they are written: a comma behind one sets it off, so that just this one is found and the
repetition takes its turn with the next. -/
theorem Greedy.separateBy_longest (g : Greedy p D) (hd : Separated D cs as) (hs : v.Spans cs w)
    (hy : (separateBy p ",").Yields v bs z) : z.room ≤ w.room := by
  induction hd generalizing v bs with
  | one ha =>
    obtain ⟨b, cs, u, -, hb, hr, -⟩ := (separateBy_yields g.advances hs.within).1 hy
    obtain ⟨_, hu⟩ := g.advances.forward v b u hs.within hb
    obtain ⟨_, ht⟩ := hr.spans (behind_advances g.advances).forward hu.within_next
    have hl := g.room_le ha hs hb
    have he := ht.room_eq
    omega
  | @more cs ds a as ha hds ih =>
    obtain ⟨x, hx, hs⟩ := hs.split
    obtain ⟨y, hc, hs⟩ := @View.Spans.split x w [','] ds hs
    have hf : Follows x.rest := ⟨',', y.rest, hc.ahead, .inl rfl⟩
    obtain ⟨b, cs, u, -, hb, hr, hend⟩ := (separateBy_yields g.advances hx.within).1 hy
    obtain ⟨-, rfl⟩ := hb.unique (g.completes ha v x hx hf)
    cases hr with
    | nil =>
      obtain ⟨n, hn⟩ := hend
      rcases (behind_fails hc.within).1 hn with ⟨-, hno⟩ | ⟨y', hc', hno⟩
      · exact (hno ⟨y.rest, hc.ahead.symm⟩).elim
      · obtain rfl : y' = y := hc'.next.trans hc.next.symm
        exact (hds.not_noneAhead hs (g.noneAhead hs.within hno)).elim
    | cons hb' hr' =>
      obtain ⟨y', hc', hb'⟩ := (behind_yields hc.within).1 hb'
      obtain rfl : y' = y := hc'.next.trans hc.next.symm
      exact ih hs ((separateBy_yields g.advances hs.within).2 ⟨_, _, _, rfl, hb', hr', hend⟩)

theorem Greedy.longestList (g : Greedy p D) (hv : v.Within)
    (hy : (separateBy p ",").Yields v as w) : LongestList D v w where
  list := by
    obtain ⟨cs, hs, hd⟩ := g.reads.separateBy g.advances v as w hv hy
    exact ⟨cs, as, hs, hd⟩
  longest hs hd := g.separateBy_longest hd hs hy

end

theorem value_greedy : Greedy value Derives where
  advances := value_advances
  reads := reads_valueIn .standard
  completes h := h.completes
  finds := by
    intro v cs x w hd hs
    by_cases ho : ∃ n, Overlong v.rest n
    · obtain ⟨n, ho⟩ := ho
      exact .inl ⟨_, value_faults_of_overlong hs.within ho⟩
    · have hn : ∀ n, ¬ Overlong (cs ++ w.rest) n := fun n hn => ho ⟨n, hs.ahead ▸ hn⟩
      obtain ⟨ds, t, y, ht, hy, he⟩ := exists_longer hd hn
      obtain ⟨u, hu, rfl⟩ := View.exists_spans hs.within_next ht
      have hr := hu.room_eq
      exact .inr ⟨y, u, value_completes hy (hs.trans hu) he, by omega⟩

theorem member_greedy : Greedy (member value) (Member Derives) where
  advances := member_advances value_advances.forward
  reads := reads_member (reads_valueIn .standard)
  completes h := member_completes (h.imp fun _ _ hd => hd.completes)
  finds := by
    intro v cs m w hm hs
    cases hm with
    | @pair ks ds k x hk hd =>
      have hs' : v.Spans (ks ++ [':'] ++ ds) w := by simpa using hs
      obtain ⟨y, hy, hs⟩ := hs'.split
      rcases value_greedy.finds hd hs with ⟨e, he⟩ | ⟨b, u, hb, hr⟩
      · exact .inl ⟨e, member_faults_behind hk hy he⟩
      · exact .inr ⟨(k, b), u, pair_yields.2 ⟨y, colon_completes hk hy, hb⟩, hr⟩

end PlainJson.Grammar
