import PlainJson.Proofs.Grammar.Longest

/-!
Where an array or an object fails. Most failures on the way are forgotten: a failure behind a comma
only ends the list of what came before it. So behind the opening bracket just two are ever seen:
that of the first item and that of the bracket which should follow the longest list of items.
-/
set_option autoImplicit false

namespace PlainJson.Grammar

open PlainJson.Parser PlainJson.Text

/-- Where a member leaves off: before its key, at the end of a text whose key is not closed, before
its colon, or before its value. -/
inductive MemberBreaksOff (v w : View) : Prop where
  | noKey : BlankTo v w → ¬ ['"'] <+: w.rest → MemberBreaksOff v w
  | openKey {x : View} {cs : List Char} :
      BlankTo v x → x.Spans ('"' :: cs) w → '"' ∉ cs → w.rest = [] → MemberBreaksOff v w
  | noColon {ks : List Char} {k : String} :
      v.Spans ks w → Padded Quoted ks k → ClearOf isBlank w.rest → ¬ [':'] <+: w.rest →
        MemberBreaksOff v w
  | noValue {ks : List Char} {k : String} {x : View} :
      v.Spans (ks ++ [':']) x → Padded Quoted ks k → NoneAhead Derives x → BlankTo x w →
        MemberBreaksOff v w

/-- Where a list in brackets leaves off, if `First` tells where a first item that is not there does:
before the opening bracket, where the first item does, or behind the longest list of items. -/
inductive ListBreaksOff {α : Type} (opening closing : String) (D : List Char → α → Prop)
    (First : View → View → Prop) (v w : View) : Prop where
  | unopened : w = v → ¬ opening.toList <+: v.rest → ListBreaksOff opening closing D First v w
  | noItem {x : View} :
      v.Spans opening.toList x → NoneAhead D x → First x w →
        ListBreaksOff opening closing D First v w
  | unclosed {x : View} :
      v.Spans opening.toList x → LongestList D x w → ¬ closing.toList <+: w.rest →
        ListBreaksOff opening closing D First v w

/-- Where the parser does not end by a fault, it fails just if no form of `D` is ahead, and `First`
tells at which view. -/
def FailsAt {α : Type} (p : Parser α) (D : List Char → α → Prop) (First : View → View → Prop) :
    Prop :=
  ∀ v w, v.Within → (p.Fails v w ↔ (∀ e, ¬ p.Faults v e) ∧ NoneAhead D v ∧ First v w)

section
variable {v w : View} {k : String}

theorem value_failsAt : FailsAt value Derives BlankTo := by
  refine fun v w hv => ⟨fun hf => ?_, fun hh => ?_⟩
  · exact ⟨fun e => hf.not_faults, value_greedy.noneAhead hv hf, value_fails hv hf⟩
  · obtain ⟨hn, hd, hb⟩ := hh
    rcases value.ends v with ⟨y, u, hy⟩ | ⟨u, hf⟩ | ⟨e, he⟩
    · obtain ⟨cs, hs, hc⟩ := value_greedy.reads v y u hv hy
      exact (hd cs y hc ⟨u.rest, hs.ahead.symm⟩).elim
    · obtain rfl := BlankTo.unique (value_fails hv hf) hb
      exact hf
    · exact (hn e he).elim

theorem key_yields (hv : v.Within) :
    (wrapBlank string).Yields v k w ↔
      ∃ ks, v.Spans ks w ∧ Padded Quoted ks k ∧ ClearOf isBlank w.rest := by
  refine ⟨fun hy => ?_, fun hh => ?_⟩
  · obtain ⟨ks, hs, hk⟩ := reads_string.wrapBlank v k w hv hy
    obtain ⟨_, _, _, _, _, _, _, _, _, _, hc⟩ :=
      (wrapBlank_yields string_advances.forward hv).1 hy
    exact ⟨ks, hs, hk, hc⟩
  · obtain ⟨ks, hs, hk, hc⟩ := hh
    exact key_completes hk hs hc

theorem MemberBreaksOff.of_fails (hv : v.Within) (h : (member value).Fails v w) :
    MemberBreaksOff v w := by
  rcases pair_fails.1 h with h | ⟨x, k, hk, h⟩
  · rcases left_fails.1 h with h | ⟨x, k, hk, h⟩
    · obtain ⟨x, hb, hf⟩ := (wrapBlank_fails_at hv).1 h
      rcases (string_fails hb.within_next).1 hf with ⟨rfl, hn⟩ | ⟨cs, hc, hn, hr⟩
      · exact .noKey hb hn
      · exact .openKey hb hc hn hr
    · obtain ⟨ks, hs, hq, hc⟩ := (key_yields hv).1 hk
      obtain ⟨rfl, hn⟩ := (literal_fails hs.within_next).1 h
      exact .noColon hs hq hc hn
  · obtain ⟨y, _, hk, hl⟩ := left_yields.1 hk
    obtain ⟨ks, hs, hq, -⟩ := (key_yields hv).1 hk
    have hc := (literal_yields hs.within_next).1 hl
    obtain ⟨-, hn, hb⟩ := (value_failsAt x w hc.within_next).1 h
    exact .noValue (hs.trans hc) hq hn hb

theorem MemberBreaksOff.fails (h : MemberBreaksOff v w) (hv : v.Within)
    (hn : ∀ e, ¬ (member value).Faults v e) : (member value).Fails v w := by
  cases h with
  | noKey hb hq =>
    have hf := (string_fails hb.within_next).2 (.inl ⟨rfl, hq⟩)
    exact pair_fails.2 (.inl (left_fails.2 (.inl ((wrapBlank_fails_at hv).2 ⟨w, hb, hf⟩))))
  | @openKey x cs hb hs hc hr =>
    have hf := (string_fails hs.within).2 (.inr ⟨cs, hs, hc, hr⟩)
    exact pair_fails.2 (.inl (left_fails.2 (.inl ((wrapBlank_fails_at hv).2 ⟨x, hb, hf⟩))))
  | @noColon ks k hs hk hc hl =>
    have hy := (key_yields hv).2 ⟨ks, hs, hk, hc⟩
    have hf := (literal_fails (s := ":") hs.within_next).2 ⟨rfl, hl⟩
    exact pair_fails.2 (.inl (left_fails.2 (.inr ⟨w, k, hy, hf⟩)))
  | @noValue ks k x hs hk hd hb =>
    have hx : ∀ e, ¬ value.Faults x e := fun e he => hn e (member_faults_behind hk hs he)
    have hf := (value_failsAt x w hs.within_next).2 ⟨hx, hd, hb⟩
    exact pair_fails.2 (.inr ⟨x, k, colon_completes hk hs, hf⟩)

theorem member_failsAt : FailsAt (member value) (Member Derives) MemberBreaksOff := by
  refine fun v w hv => ⟨fun hf => ?_, fun hh => hh.2.2.fails hv hh.1⟩
  exact ⟨fun e => hf.not_faults, member_greedy.noneAhead hv hf, .of_fails hv hf⟩

end

section
variable {α : Type} {p : Parser α} {D : List Char → α → Prop} {First : View → View → Prop}
  {opening closing : String} {v w : View}

theorem ListBreaksOff.of_fails (g : Greedy p D) (hp : FailsAt p D First) (hv : v.Within)
    (h : (wrap opening (separateBy p ",") closing).Fails v w) :
    ListBreaksOff opening closing D First v w := by
  have ha : (separateBy p ",").Advances := separateBy_advances g.advances
  rcases (wrap_fails ha.forward hv).1 h with ⟨rfl, hn⟩ | ⟨x, hx, hf | ⟨as, hy, hn⟩⟩
  · exact .unopened rfl hn
  · obtain ⟨-, hd, hw⟩ := (hp x w hx.within_next).1 (separateBy_fails.1 hf)
    exact .noItem hx hd hw
  · exact .unclosed hx (g.longestList hx.within_next hy) hn

theorem ListBreaksOff.fails (h : ListBreaksOff opening closing D First v w) (g : Greedy p D)
    (hp : FailsAt p D First) (hv : v.Within)
    (hn : ∀ e, ¬ (wrap opening (separateBy p ",") closing).Faults v e) :
    (wrap opening (separateBy p ",") closing).Fails v w := by
  have ha : (separateBy p ",").Advances := separateBy_advances g.advances
  have hx : ∀ x e, v.Spans opening.toList x → ¬ (separateBy p ",").Faults x e :=
    fun x e hs he => hn e ((wrap_faults hv).2 ⟨x, hs, he⟩)
  refine (wrap_fails ha.forward hv).2 ?_
  cases h with
  | unopened he ho => exact .inl ⟨he, ho⟩
  | @noItem x hs hd hw =>
    have hf : ∀ e, ¬ p.Faults x e := fun e he =>
      hx x e hs ((separateBy_faults g.advances hs.within_next).2 (.inl he))
    exact .inr ⟨x, hs, .inl (separateBy_fails.2 ((hp x w hs.within_next).2 ⟨hf, hd, hw⟩))⟩
  | @unclosed x hs hl hc =>
    rcases (separateBy p ",").ends x with ⟨as, z, hy⟩ | ⟨z, hz⟩ | ⟨e, he⟩
    · obtain rfl := hl.unique (g.longestList hs.within_next hy)
      exact .inr ⟨x, hs, .inr ⟨as, hy, hc⟩⟩
    · obtain ⟨cs, as, hcs, hd⟩ := hl.list
      exact (hd.not_noneAhead hcs (g.noneAhead hs.within_next (separateBy_fails.1 hz))).elim
    · exact (hx x e hs he).elim

theorem Greedy.list_fails_iff (g : Greedy p D) (hp : FailsAt p D First) (hv : v.Within) :
    (wrap opening (separateBy p ",") closing).Fails v w ↔
      (∀ e, ¬ (wrap opening (separateBy p ",") closing).Faults v e) ∧
        ListBreaksOff opening closing D First v w :=
  ⟨fun hf => ⟨fun _ => hf.not_faults, .of_fails g hp hv hf⟩, fun hh => hh.2.fails g hp hv hh.1⟩

end

/-- An array or an object that does not end by a fault fails exactly where it breaks off: at the
view itself without an opening bracket, where the first item does if none is there, and otherwise
right behind the longest list of items, so never behind a comma that no item follows. -/
theorem containers_fail_iff (v w : View) (hv : v.Within) :
    ((array value).Fails v w ↔
      (∀ e, ¬ (array value).Faults v e) ∧ ListBreaksOff "[" "]" Derives BlankTo v w) ∧
    ((object value).Fails v w ↔
      (∀ e, ¬ (object value).Faults v e) ∧
        ListBreaksOff "\x7b" "\x7d" (Member Derives) MemberBreaksOff v w) := by
  have hm : (separateBy (member value) ",").Advances := separateBy_advances member_greedy.advances
  refine ⟨value_greedy.list_fails_iff value_failsAt hv, ?_⟩
  simp only [object, wrap_map_fails hm.forward hv, wrap_map_faults hv]
  exact member_greedy.list_fails_iff member_failsAt hv

/-- A member without a value leaves no trace, nor does the comma before it. -/
theorem containers_fail_iff_later :
    (View.ofString "[\x7b\"a\": 1 , \"b\":\x7d]" 1).Within ∧
      (object value).Fails (View.ofString "[\x7b\"a\": 1 , \"b\":\x7d]" 1)
        (View.ofString "[\x7b\"a\": 1 , \"b\":\x7d]" 9) ∧
      ListBreaksOff "\x7b" "\x7d" (Member Derives) MemberBreaksOff
        (View.ofString "[\x7b\"a\": 1 , \"b\":\x7d]" 1)
        (View.ofString "[\x7b\"a\": 1 , \"b\":\x7d]" 9) := by
  have hv : (View.ofString "[\x7b\"a\": 1 , \"b\":\x7d]" 1).Within := ⟨by decide, by decide⟩
  have hf : (object value).Fails (View.ofString "[\x7b\"a\": 1 , \"b\":\x7d]" 1)
      (View.ofString "[\x7b\"a\": 1 , \"b\":\x7d]" 9) := rfl
  exact ⟨hv, hf, ((containers_fail_iff _ _ hv).2.1 hf).2⟩

end PlainJson.Grammar
