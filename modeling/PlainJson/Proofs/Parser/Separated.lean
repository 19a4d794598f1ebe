import PlainJson.Proofs.Parser.Around

/-!
Lists with a separator between the items. Reading one follows the chain of items as far as it goes:
to where no separator comes next, or one behind which there is no item. Such a separator is left
alone, whatever the parser went over behind it before it failed.
-/
set_option autoImplicit false

namespace PlainJson.Parser

variable {α : Type} {p : Parser α} {sep : String} {v w u x : View} {a : α} {as : List α}
  {c d : List (α × View)}

/-- Begun at `v`, the parser yields one value after another, each after the first right behind the
separator. Every value comes with the view that remains behind it, and `w` is the last of these. -/
inductive Chain (p : Parser α) (sep : String) : View → List (α × View) → View → Prop where
  | one {v w : View} {a : α} : p.Yields v a w → Chain p sep v [(a, w)] w
  | more {v u x w : View} {a : α} {c : List (α × View)} :
      p.Yields v a u → u.Spans sep.toList x → Chain p sep x c w → Chain p sep v ((a, u) :: c) w

/-- No separator comes next, or one behind which the parser fails. -/
def Halts (p : Parser α) (sep : String) (w : View) : Prop :=
  ¬ sep.toList <+: w.rest ∨ ∃ x y, w.Spans sep.toList x ∧ p.Fails x y

theorem Chain.ne_nil (h : Chain p sep v c w) : c ≠ [] := by
  cases h with
  | one => simp
  | more => simp

theorem Chain.first (h : Chain p sep v c w) : ∃ a u, p.Yields v a u := by
  cases h with
  | one hy => exact ⟨_, _, hy⟩
  | more hy => exact ⟨_, _, hy⟩

/-- Where a chain halts it does not go on. -/
theorem Halts.not_chain (h : Halts p sep w) (hs : w.Spans sep.toList x) :
    ¬ Chain p sep x c u := by
  intro hc
  rcases h with hn | ⟨y, z, hs', hf⟩
  · exact hn ⟨x.rest, hs.ahead.symm⟩
  · obtain rfl : x = y := hs.next.trans hs'.next.symm
    obtain ⟨_, _, hy⟩ := hc.first
    exact hy.not_fails hf

theorem Chain.unique (h : Chain p sep v c w) (hw : Halts p sep w) (h' : Chain p sep v d u)
    (hu : Halts p sep u) : d = c ∧ u = w := by
  induction h generalizing d u with
  | one hy =>
    cases h' with
    | one hy' =>
      obtain ⟨rfl, rfl⟩ := hy.unique hy'
      exact ⟨rfl, rfl⟩
    | more hy' hs hc =>
      obtain ⟨rfl, rfl⟩ := hy.unique hy'
      exact (hw.not_chain hs hc).elim
  | more hy hs hc ih =>
    cases h' with
    | one hy' =>
      obtain ⟨rfl, rfl⟩ := hy.unique hy'
      exact (hu.not_chain hs hc).elim
    | more hy' hs' hc' =>
      obtain ⟨rfl, rfl⟩ := hy.unique hy'
      obtain rfl := hs.next.trans hs'.next.symm
      obtain ⟨rfl, rfl⟩ := ih hw hc' hu
      exact ⟨rfl, rfl⟩

theorem exists_chain (hp : p.Forward) (hy : p.Yields v a x) (hr : Repeats (behind sep p) x as w)
    (hv : v.Within) : ∃ c, c.map Prod.fst = a :: as ∧ Chain p sep v c w := by
  induction hr generalizing v a with
  | nil x => exact ⟨[(a, x)], rfl, .one hy⟩
  | @cons x u w b bs hb _ ih =>
    obtain ⟨_, hs⟩ := hp v a x hv hy
    obtain ⟨y, hsep, hb⟩ := (behind_yields hs.within_next).1 hb
    obtain ⟨c, hm, hc⟩ := ih hb hsep.within_next
    exact ⟨(a, x) :: c, congrArg (a :: ·) hm, .more hy hsep hc⟩

theorem halts_iff (hw : w.Within) : Halts p sep w ↔ ∃ y, (behind sep p).Fails w y := by
  simp only [behind_fails hw]
  refine ⟨fun hh => ?_, fun hh => ?_⟩
  · rcases hh with hn | ⟨x, y, hs, hf⟩
    · exact ⟨w, .inl ⟨rfl, hn⟩⟩
    · exact ⟨y, .inr ⟨x, hs, hf⟩⟩
  · obtain ⟨y, ⟨-, hn⟩ | ⟨x, hs, hf⟩⟩ := hh
    · exact .inl hn
    · exact .inr ⟨x, y, hs, hf⟩

/-- Either the separator or the item moves on, and so each turn of the repetition does. -/
theorem behind_advances_of (hp : p.Forward) (h : sep ≠ "" ∨ p.Advances) :
    (behind sep p).Advances := by
  rcases h with hs | ha
  · exact (literal_advances fun hn => hs (String.toList_eq_nil_iff.1 hn)).right hp
  · exact behind_advances ha

/-- A list is read as the chain that cannot go on. -/
theorem exists_chain_of_yields (hp : p.Forward) (hb : (behind sep p).Advances) (hv : v.Within)
    (h : (separateBy p sep).Yields v as w) :
    ∃ c, c.map Prod.fst = as ∧ Chain p sep v c w ∧ Halts p sep w := by
  obtain ⟨a, bs, x, rfl, hy, hr, hf⟩ := (separateBy_yields_of_behind hp hb hv).1 h
  obtain ⟨c, hm, hc⟩ := exists_chain hp hy hr hv
  obtain ⟨_, hs⟩ := hp v a x hv hy
  obtain ⟨_, ht⟩ := hr.spans hb.forward hs.within_next
  exact ⟨c, hm, hc, (halts_iff ht.within_next).2 hf⟩

/-- With nothing for a separator, every turn is the parser itself. -/
theorem agree_behind_nothing (p : Parser α) : AgreeOn (fun _ => True) (behind "" p) p := by
  intro v hv _
  have hl : (literal "").run v = .done (.success v ()) := by
    simp [literal, View.startsWith_eq hv.2, View.advance]
  simp only [behind, right, map, pair, hl, Run.done_andThen, Run.andThen_assoc]
  refine (Run.andThen_congr fun o _ => ?_).trans (Run.andThen_done _)
  cases o with
  | success w b => rfl
  | failure w => rfl

theorem separateBy_nothing (hp : p.Forward) (hv : v.Within) :
    (separateBy p "").run v = (many1 p).run v := by
  have hS : View.Onward fun _ => True := fun _ _ _ _ _ => trivial
  have hb : (behind "" p).Forward := (literal_forward "").right hp
  have hm := (agree_behind_nothing p).many hS hb
  exact (((AgreeOn.refl _ p).pair hS hp hm).map cons) v hv trivial

/-- A list with a separator is read exactly as far as items follow one another. It fails exactly
where its first item fails, and in the same way. Otherwise there is just one chain of items that
cannot go on, and its values are read, up to the view right behind the last of them. With nothing
for a separator it is the same as one item or more. -/
theorem separateBy_maximal (p : Parser α) (sep : String) (hp : p.Forward)
    (hc : sep ≠ "" ∨ p.Advances) (hn : ∀ u e, u.Within → ¬ p.Faults u e) (v : View)
    (hv : v.Within) :
    (∀ w, (separateBy p sep).Fails v w ↔ p.Fails v w) ∧
    ((∀ w, ¬ p.Fails v w) → ∃ c w, 1 ≤ c.length ∧ Chain p sep v c w ∧ Halts p sep w ∧
      (∀ d u, Chain p sep v d u → Halts p sep u → d = c ∧ u = w) ∧
      (separateBy p sep).Yields v (c.map Prod.fst) w) ∧
    (separateBy p "").run v = (many1 p).run v := by
  have hb := behind_advances_of hp hc
  refine ⟨fun w => separateBy_fails, fun hf => ?_, separateBy_nothing hp hv⟩
  rcases (separateBy p sep).ends v with ⟨as, w, hy⟩ | ⟨w, hw⟩ | ⟨e, he⟩
  · obtain ⟨c, rfl, hch, hh⟩ := exists_chain_of_yields hp hb hv hy
    have hl := List.length_pos_iff.2 hch.ne_nil
    exact ⟨c, w, hl, hch, hh, fun d u hd hu => hch.unique hh hd hu, hy⟩
  · exact (hf w (separateBy_fails.1 hw)).elim
  · rcases (separateBy_faults_of_behind hp hb hv).1 he with h | ⟨a, x, bs, y, hy, hr, h⟩
    · exact (hn v e hv h).elim
    · obtain ⟨_, hs⟩ := hp v a x hv hy
      obtain ⟨_, ht⟩ := hr.spans hb.forward hs.within_next
      obtain ⟨z, hz, h⟩ := (behind_faults ht.within_next).1 h
      exact (hn z e hz.within_next h).elim

def digits : Parser (List Char) := many1 (anyChar.filter Char.isDigit)

/-- The second separator has no number behind it and is left alone. -/
theorem separateBy_maximal_dangling :
    digits.Forward ∧ (", " ≠ "" ∨ digits.Advances) ∧ (∀ u e, u.Within → ¬ digits.Faults u e) ∧
      (View.ofString "1, 23, x" 0).Within ∧
      ∃ c, c.map Prod.fst = [['1'], ['2', '3']] ∧
        Chain digits ", " (View.ofString "1, 23, x" 0) c (View.ofString "1, 23, x" 5) ∧
        Halts digits ", " (View.ofString "1, 23, x" 5) := by
  have hp : digits.Forward := (many1_advances (anyChar_advances.filter _)).forward
  have hc : ", " ≠ "" ∨ digits.Advances := .inl (by decide)
  have hn : ∀ u e, u.Within → ¬ digits.Faults u e := fun _ _ hu => stretch1_not_faults hu
  have hv := View.within_ofString "1, 23, x"
  have hf : digits.Yields (View.ofString "1, 23, x" 0) ['1'] (View.ofString "1, 23, x" 1) := rfl
  have hy : (separateBy digits ", ").Yields (View.ofString "1, 23, x" 0) [['1'], ['2', '3']]
      (View.ofString "1, 23, x" 5) := rfl
  obtain ⟨c, w, -, hch, hh, -, hr⟩ :=
    (separateBy_maximal digits ", " hp hc hn _ hv).2.1 fun _ => hf.not_fails
  obtain ⟨hm, rfl⟩ := hr.unique hy
  exact ⟨hp, hc, hn, hv, c, hm, hch, hh⟩

end PlainJson.Parser
