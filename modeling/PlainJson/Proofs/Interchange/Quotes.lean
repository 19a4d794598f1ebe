import PlainJson.Proofs.Grammar.Reading
import PlainJson.Proofs.Interchange.Meaning

/-!
Where texts begin and end. The grammar of documents and the standard agree on this up to the first
escaped double quote, and from there on they disagree about every character: what is inside a text
for one is outside for the other. So only one of them can be outside at the end.
-/
set_option autoImplicit false

namespace PlainJson.Interchange

open PlainJson.Grammar PlainJson.Text

/-- What double quotes tell to a reader that knows no escapes, who is inside a text or outside and
comes out of it at the end. No backslash is outside. -/
inductive Paired : Bool → List Char → Prop where
  | done : Paired false []
  | pass {c : Char} {cs : List Char} :
      c ≠ '"' → c ≠ '\\' → Paired false cs → Paired false (c :: cs)
  | quote {b : Bool} {cs : List Char} : Paired (!b) cs → Paired b ('"' :: cs)
  | keep {c : Char} {cs : List Char} : c ≠ '"' → Paired true cs → Paired true (c :: cs)

/-- What they tell to a reader that knows escapes, with the pieces of all the texts. -/
inductive Strung : Bool → List Char → List Piece → Prop where
  | done : Strung false [] []
  | pass {c : Char} {cs : List Char} {ps : List Piece} :
      c ≠ '"' → Strung false cs ps → Strung false (c :: cs) ps
  | quote {b : Bool} {cs : List Char} {ps : List Piece} :
      Strung (!b) cs ps → Strung b ('"' :: cs) ps
  | piece {p : Piece} {cs : List Char} {ps : List Piece} :
      p.allowed = true → Strung true cs ps → Strung true (p.raw ++ cs) (p :: ps)

section
variable {b : Bool} {c : Char} {cs ds k : List Char} {p : Piece} {ps qs : List Piece}

theorem Paired.of_quote (h : Paired b ('"' :: cs)) : Paired (!b) cs := by
  cases h with
  | pass hq => exact (hq rfl).elim
  | quote h => exact h
  | keep hq => exact (hq rfl).elim

theorem paired_keep (hk : '"' ∉ k) : Paired true (k ++ cs) ↔ Paired true cs := by
  induction k with
  | nil => rfl
  | cons c k ih =>
    have hc := List.ne_of_not_mem_cons hk
    have hk := List.not_mem_of_not_mem_cons hk
    refine ⟨fun hh => ?_, fun hh => .keep (fun he => hc he.symm) ((ih hk).2 hh)⟩
    cases hh with
    | quote => exact (hc rfl).elim
    | keep _ h => exact (ih hk).1 h

theorem Paired.append (h : Paired b cs) (hd : Paired false ds) : Paired b (cs ++ ds) := by
  induction h with
  | done => exact hd
  | pass hq hb _ ih => exact .pass hq hb ih
  | quote _ ih => exact .quote ih
  | keep hq _ ih => exact .keep hq ih

theorem Strung.append (h : Strung b cs ps) (hd : Strung false ds qs) :
    Strung b (cs ++ ds) (ps ++ qs) := by
  induction h with
  | done => exact hd
  | pass hq _ ih => exact .pass hq ih
  | quote _ ih => exact .quote ih
  | piece hp _ ih =>
    rw [List.append_assoc]
    exact .piece hp ih

theorem strung_pass (h : '"' ∉ cs) : Strung false cs [] := by
  induction cs with
  | nil => exact .done
  | cons c cs ih =>
    have hc := List.ne_of_not_mem_cons h
    exact .pass (fun he => hc he.symm) (ih (List.not_mem_of_not_mem_cons h))

/-- How a piece begins: with a character that is itself, or with a backslash. -/
theorem Piece.raw_cases (hp : p.allowed = true) :
    (∃ c, p = .plain c ∧ c ≠ '"' ∧ c ≠ '\\') ∨ ∃ t, p.raw = '\\' :: t := by
  cases p with
  | plain c =>
    simp only [Piece.allowed, Bool.and_eq_true, bne_iff_ne] at hp
    exact .inl ⟨c, rfl, hp.1.2, hp.2⟩
  | short c => exact .inr ⟨[c], rfl⟩
  | code a b c d => exact .inr ⟨['u', a, b, c, d], rfl⟩

/-- The next character, inside of a text. -/
theorem Strung.inside (h : Strung true (c :: cs) ps) :
    (c = '"' ∧ Strung false cs ps) ∨ (c ≠ '"' ∧ ∃ qs, Strung true cs qs) ∨ c = '\\' := by
  generalize hb : true = b at h
  generalize hs : c :: cs = s at h
  cases h with
  | done => cases hs
  | pass => cases hb
  | quote h =>
    subst hb
    obtain ⟨rfl, rfl⟩ := List.cons.inj hs
    exact .inl ⟨rfl, h⟩
  | @piece p ds qs hp h =>
    rcases Piece.raw_cases hp with ⟨d, rfl, hq, -⟩ | ⟨t, ht⟩
    · obtain ⟨rfl, rfl⟩ := List.cons.inj hs
      exact .inr (.inl ⟨hq, qs, h⟩)
    · rw [ht] at hs
      exact .inr (.inr (List.cons.inj hs).1)

/-- Two readers of whom one is inside and one outside do not both come out at the end. -/
theorem not_strung_of_paired (h : Paired b cs) : ∀ ps, ¬ Strung (!b) cs ps := by
  induction h with
  | done =>
    intro ps hs
    generalize ht : ([] : List Char) = t at hs
    cases hs with
    | quote => cases ht
    | @piece p ds qs hp =>
      rcases Piece.raw_cases hp with ⟨c, rfl, -⟩ | ⟨u, hu⟩
      · cases ht
      · rw [hu] at ht
        cases ht
  | pass hq hb _ ih =>
    intro ps hs
    rcases hs.inside with ⟨he, -⟩ | ⟨-, qs, hs⟩ | he
    · exact hq he
    · exact ih qs hs
    · exact hb he
  | @quote b cs _ ih =>
    -- Both change sides here, so they are still on different ones behind it.
    intro ps hs
    cases b with
    | false =>
      rcases hs.inside with ⟨-, hs⟩ | ⟨hq, -⟩ | he
      · exact ih ps hs
      · exact hq rfl
      · cases he
    | true =>
      cases hs with
      | pass hq => exact hq rfl
      | quote hs => exact ih ps hs
  | keep hq _ ih =>
    intro ps hs
    cases hs with
    | pass _ hs => exact ih ps hs
    | quote => exact hq rfl

theorem Piece.not_mem_raw (hp : p.allowed = true) (hn : p ≠ .short '"') : '"' ∉ p.raw := by
  cases p with
  | plain c =>
    simp only [Piece.allowed, Bool.and_eq_true, bne_iff_ne] at hp
    simpa [Piece.raw, eq_comm] using hp.1.2
  | short c =>
    have hc : c ≠ '"' := fun he => hn (he ▸ rfl)
    simpa [Piece.raw, eq_comm] using hc
  | code a b c d =>
    have hx : ∀ h : Char, Piece.isHex h = true → '"' ≠ h := by
      intro h hh he
      rw [← he] at hh
      cases hh
    simp only [Piece.allowed, List.all_cons, List.all_nil, Bool.and_true, Bool.and_eq_true] at hp
    simp [Piece.raw, hx a hp.1, hx b hp.2.1, hx c hp.2.2.1, hx d hp.2.2.2]

/-- Two readers who are both inside or both outside at first have seen no escaped double quote. -/
theorem unescaped_of_paired (hs : Strung b cs ps) (hp : Paired b cs) : .short '"' ∉ ps := by
  induction hs with
  | done => simp
  | pass hq _ ih =>
    cases hp with
    | pass _ _ hp => exact ih hp
    | quote => exact (hq rfl).elim
  | quote _ ih => exact ih hp.of_quote
  | @piece p cs ps ha hs ih =>
    by_cases he : p = .short '"'
    · -- This quote brings out only the reader who knows no escapes.
      subst he
      have hq : Paired true ('"' :: cs) := (@paired_keep ('"' :: cs) ['\\'] (by simp)).1 hp
      exact (not_strung_of_paired hq.of_quote ps hs).elim
    · have hk := (paired_keep (Piece.not_mem_raw ha he)).1 hp
      exact List.not_mem_cons_of_ne_of_not_mem (fun hh => he hh.symm) (ih hk)

theorem paired_of_all {f : Char → Bool} (hq : f '"' = false) (hb : f '\\' = false)
    (h : AllOf f cs) : Paired false cs := by
  induction cs with
  | nil => exact .done
  | cons c cs ih =>
    obtain ⟨hc, ha⟩ := allOf_cons.1 h
    refine .pass (fun he => ?_) (fun he => ?_) (ih ha)
    · rw [← he, hc] at hq
      cases hq
    · rw [← he, hc] at hb
      cases hb

theorem strung_of_all {f : Char → Bool} (hq : f '"' = false) (h : AllOf f cs) :
    Strung false cs [] := by
  refine strung_pass fun hm => ?_
  rw [h _ hm] at hq
  cases hq

theorem paired_of_quoted {s : String} (h : Quoted cs s) : Paired false cs := by
  cases h with
  | quoted hn => exact .quote ((paired_keep hn).2 (.quote .done))

theorem paired_of_padded {α : Type} {D : List Char → α → Prop} {a : α}
    (h : ∀ ds b, D ds b → Paired false ds) (hp : Padded D cs a) : Paired false cs := by
  cases hp with
  | pad hl hd hr =>
    have hl := paired_of_all rfl rfl hl
    have hr := paired_of_all rfl rfl hr
    exact (hl.append (h _ _ hd)).append hr

theorem paired_of_separated {α : Type} {D : List Char → α → Prop} {as : List α}
    (h : ∀ ds b, D ds b → Paired false ds) (hs : Separated D cs as) : Paired false cs := by
  induction hs with
  | one hd => exact h _ _ hd
  | more hd _ ih => exact (h _ _ hd).append (.pass (by decide) (by decide) ih)

theorem paired_of_member {D : List Char → Value → Prop} {m : String × Value}
    (h : ∀ ds y, D ds y → Paired false ds) (hm : Member D cs m) : Paired false cs := by
  cases hm with
  | pair hk hd =>
    have hq := paired_of_padded (fun _ _ => paired_of_quoted) hk
    exact hq.append (.pass (by decide) (by decide) (h _ _ hd))

/-- Every double quote that a document has begins a text or ends it. -/
theorem paired_of_bare {x : Value} (h : Bare cs x) : Paired false cs := by
  have hp : ∀ ds y, Padded (fun es z => Bare es z ∧ Paired false es) ds y → Paired false ds :=
    fun _ _ => paired_of_padded fun _ _ hd => hd.2
  have hw : ∀ ds : List Char, ds.all Char.isAlpha = true → Paired false ds :=
    fun ds hd => paired_of_all rfl rfl (List.all_eq_true.1 hd)
  refine Bare.nested (P := fun cs _ => Paired false cs) ?null ?bool ?string ?number ?array ?object h
  case null => exact hw _ rfl
  case bool =>
    intro b
    cases b
    · exact hw _ rfl
    · exact hw _ rfl
  case string =>
    intro _ _ hq
    exact paired_of_quoted hq
  case number =>
    intro _ _ _ hd
    exact paired_of_all rfl rfl hd
  case array =>
    intro cs xs hi
    have hcs := (paired_of_separated hp hi).append (.pass (c := ']') (by decide) (by decide) .done)
    exact .pass (by decide) (by decide) hcs
  case object =>
    intro cs ms table hi _
    have hm := paired_of_separated (fun _ _ => paired_of_member hp) hi
    have hcs := hm.append (.pass (c := '\x7d') (by decide) (by decide) .done)
    exact .pass (by decide) (by decide) hcs

theorem strung_of_number (h : Number cs) : Strung false cs [] := by
  have hd : ∀ ds, AllOf Char.isDigit ds → Strung false ds [] := fun _ => strung_of_all rfl
  cases h with
  | @number sign ds fs es hs hw hf he =>
    have hs : Strung false sign [] := by
      rcases hs with rfl | rfl
      · exact .done
      · exact .pass (by decide) .done
    have hw : Strung false ds [] := by
      cases hw with
      | zero => exact .pass (by decide) .done
      | more hc _ ha => exact hd _ (allOf_cons.2 ⟨hc, ha⟩)
    have hf : Strung false fs [] := by
      cases hf with
      | none => exact .done
      | point _ ha => exact .pass (by decide) (hd _ ha)
    have he : Strung false es [] := by
      cases he with
      | none => exact .done
      | @power e sign ds hc hg _ ha =>
        have hn : e ≠ '"' := by rcases hc with rfl | rfl <;> decide
        rcases hg with rfl | rfl | rfl
        · exact .pass hn (hd _ ha)
        · exact .pass hn (.pass (by decide) (hd _ ha))
        · exact .pass hn (.pass (by decide) (hd _ ha))
    exact ((hs.append hw).append hf).append he

theorem strung_of_mark (hc : c ≠ '"') (h : Mark c cs) : Strung false cs [] := by
  cases h with
  | mark hl hr => exact (strung_of_all rfl hl).append (.pass hc (strung_of_all rfl hr))

theorem strung_of_spelled (h : Spelled cs ps) : Strung false cs ps := by
  have hk : ∀ qs : List Piece, (∀ p ∈ qs, p.allowed = true) →
      Strung true (qs.flatMap Piece.raw ++ ['"']) qs := by
    intro qs hq
    induction qs with
    | nil => exact .quote .done
    | cons p qs ih =>
      have hs := Strung.piece (hq p (by simp)) (ih fun r hr => hq r (by simp [hr]))
      simpa using hs
  cases h with
  | spelled hp => exact .quote (hk ps hp)

/-- If none of the pieces is an escaped double quote, what is written has none. -/
def Spells (cs : List Char) (t : Tree) : Prop :=
  ∃ ps, Strung false cs ps ∧ (.short '"' ∉ ps → t.Unescaped)

theorem spells_of_listed {α : Type} {D : List Char → α → Prop} {Q : α → Prop} {as : List α}
    (h : ∀ ds a, D ds a → ∃ ps, Strung false ds ps ∧ (.short '"' ∉ ps → Q a))
    (hl : Listed D cs as) :
    ∃ ps, Strung false cs ps ∧ (.short '"' ∉ ps → ∀ a ∈ as, Q a) := by
  induction hl with
  | one hd =>
    obtain ⟨ps, hs, hq⟩ := h _ _ hd
    exact ⟨ps, hs, by simpa using hq⟩
  | more hd hm _ ih =>
    obtain ⟨ps, hs, hq⟩ := h _ _ hd
    obtain ⟨qs, ht, hr⟩ := ih
    refine ⟨ps ++ [] ++ qs, (hs.append (strung_of_mark (by decide) hm)).append ht, fun hn => ?_⟩
    simp only [List.append_nil, List.mem_append, not_or] at hn
    exact List.forall_mem_cons.2 ⟨hq hn.1, hr hn.2⟩

theorem spells_of_entry {D : List Char → Tree → Prop} {m : List Piece × Tree}
    (h : ∀ ds u, D ds u → Spells ds u) (hm : Entry D cs m) :
    ∃ ps, Strung false cs ps ∧ (.short '"' ∉ ps → .short '"' ∉ m.1 ∧ m.2.Unescaped) := by
  cases hm with
  | pair hk hm hd =>
    obtain ⟨qs, ht, hq⟩ := h _ _ hd
    refine ⟨_, ((strung_of_spelled hk).append (strung_of_mark (by decide) hm)).append ht,
      fun hn => ?_⟩
    simp only [List.append_nil, List.mem_append, not_or] at hn
    exact ⟨hn.1, hq hn.2⟩

theorem spells_of_written {t : Tree} (h : Written cs t) : Spells cs t := by
  have hi : ∀ ds u, (Written ds u ∧ Spells ds u) → Spells ds u := fun _ _ hd => hd.2
  refine Written.nested (P := Spells) ?null ?bool ?number ?text ?noItems ?array ?noEntries ?object h
  case null => exact ⟨[], strung_pass (by decide), fun _ => Tree.unescaped_null⟩
  case bool =>
    intro b
    refine ⟨[], strung_pass ?_, fun _ => Tree.unescaped_bool b⟩
    cases b <;> decide
  case number =>
    intro cs hn
    exact ⟨[], strung_of_number hn, fun _ => Tree.unescaped_number⟩
  case text =>
    intro cs ps hp
    exact ⟨ps, strung_of_spelled hp, Tree.unescaped_text.2⟩
  case noItems =>
    intro a b ha hb
    have hs := (strung_of_mark (by decide) ha).append (strung_of_mark (by decide) hb)
    exact ⟨_, hs, fun _ => Tree.unescaped_array.2 (by simp)⟩
  case array =>
    intro a cs b ts ha hl hb
    obtain ⟨ps, hs, hu⟩ := spells_of_listed hi hl
    refine ⟨_, ((strung_of_mark (by decide) ha).append hs).append (strung_of_mark (by decide) hb),
      fun hn => Tree.unescaped_array.2 (hu ?_)⟩
    simpa using hn
  case noEntries =>
    intro a b ha hb
    have hs := (strung_of_mark (by decide) ha).append (strung_of_mark (by decide) hb)
    exact ⟨_, hs, fun _ => Tree.unescaped_object.2 (by simp)⟩
  case object =>
    intro a cs b ms ha hl hb
    have he : ∀ ds m, Entry (fun es u => Written es u ∧ Spells es u) ds m →
        ∃ ps, Strung false ds ps ∧ (.short '"' ∉ ps → .short '"' ∉ m.1 ∧ m.2.Unescaped) :=
      fun _ _ => spells_of_entry hi
    obtain ⟨ps, hs, hu⟩ := spells_of_listed he hl
    refine ⟨_, ((strung_of_mark (by decide) ha).append hs).append (strung_of_mark (by decide) hb),
      fun hn => Tree.unescaped_object.2 (hu ?_)⟩
    simpa using hn

/-- What a document says in the standard's syntax says it without escaped double quotes. -/
theorem unescaped_of_derives {t : Tree} {x : Value} (h : Valid cs t) (hd : Derives cs x) :
    t.Unescaped := by
  cases h with
  | pad hl hw hr =>
    obtain ⟨ps, hs, hu⟩ := spells_of_written hw
    have hv := ((strung_of_all rfl hl).append hs).append (strung_of_all rfl hr)
    have hn := unescaped_of_paired hv (paired_of_padded (fun _ _ => paired_of_bare) hd)
    exact hu (by simpa using hn)

end

end PlainJson.Interchange
