import PlainJson.Proofs.Document.Acceptance
import PlainJson.Proofs.Interchange.Embedding

/-!
What documents make of texts in the standard's syntax. A text is a document just if its tree is
plain, and then its value is that of the tree; all other texts are refused.
-/
set_option autoImplicit false

namespace PlainJson.Interchange

open PlainJson.Grammar PlainJson.Text

/-- A comma or a closing bracket follows, or nothing. -/
def Closed (t : List Char) : Prop := t = [] ∨ Follows t

section
variable {l r t u cs ds es bs rest : List Char} {c : Char} {k : Kind} {x : Value}

theorem Closed.ends (h : Closed t) (cs : List Char) : Ends cs t := by
  rcases h with rfl | h
  · exact ends_nil cs
  · exact h.ends cs

theorem closed_comma : Closed (',' :: t) := .inr ⟨',', t, rfl, .inl rfl⟩

theorem closed_bracket (hc : c = ']' ∨ c = '\x7d') : Closed (c :: t) := .inr ⟨c, t, rfl, .inr hc⟩

/-- What comes after a value and white space. -/
theorem Closed.head (h : Closed u) (hr : AllOf isBlank r) :
    ∀ c ∈ (r ++ u).head?, isBlank c = true ∨ c = ',' ∨ c = ']' ∨ c = '\x7d' := by
  intro c hc
  cases r with
  | nil =>
    rcases h with rfl | ⟨d, t, rfl, hd⟩
    · cases hc
    · cases hc
      exact .inr hd
  | cons d r =>
    cases hc
    exact .inl (allOf_cons.1 hr).1

theorem Closed.clearOf (h : Closed u) (hr : AllOf isBlank r) : ClearOf Char.isDigit (r ++ u) := by
  intro c hc
  rcases h.head hr c hc with hb | rfl | rfl | rfl
  · exact not_isDigit_of_isBlank hb
  · rfl
  · rfl
  · rfl

/-- A value that begins where the white space ends. -/
theorem bare_of_front (hd : Derives ds x) (hl : AllOf isBlank l) (hc : isBlank c = false)
    (h : l ++ c :: t = ds ++ u) :
    ∃ b r, Bare (c :: b) x ∧ AllOf isBlank r ∧ t = b ++ (r ++ u) := by
  cases hd with
  | @pad l' b r _ hl' hb hr =>
    have hf := hb.clearOf_blank (r ++ u)
    have he : l ++ c :: t = l' ++ (b ++ (r ++ u)) := by simpa using h
    obtain ⟨-, he⟩ := stretch_unique hl (clearOf_cons.2 hc) hl' hf he
    obtain ⟨k, d, b, rfl, -⟩ := hb.first
    obtain ⟨rfl, ht⟩ := List.cons.inj he
    exact ⟨b, r, hb, hr, ht⟩

/-- What the first character of a value tells about the rest. -/
theorem bare_cases (h : Bare (c :: t) x) :
    (AllOf Char.isDigit (c :: t) ∧ (c :: t).length ≤ maxDigits) ∨
      (c = '[' ∧ ∃ es xs, t = es ++ [']'] ∧ Separated Derives es xs) ∨
      (c = '\x7b' ∧ ∃ es ms, t = es ++ ['\x7d'] ∧ Separated (Member Derives) es ms) ∨
      c ∈ ['n', 't', 'f', '"'] := by
  generalize hs : c :: t = s at h
  cases h with
  | null =>
    have hc : c = 'n' := (List.cons.inj hs).1
    simp [hc]
  | bool b =>
    cases b
    · have hc : c = 'f' := (List.cons.inj hs).1
      simp [hc]
    · have hc : c = 't' := (List.cons.inj hs).1
      simp [hc]
  | string hq =>
    cases hq
    have hc : c = '"' := (List.cons.inj hs).1
    simp [hc]
  | number _ hl ha =>
    subst hs
    exact .inl ⟨ha, hl⟩
  | array hi =>
    obtain ⟨rfl, rfl⟩ := List.cons.inj hs
    exact .inr (.inl ⟨rfl, _, _, rfl, hi⟩)
  | object hi =>
    obtain ⟨rfl, rfl⟩ := List.cons.inj hs
    exact .inr (.inr (.inl ⟨rfl, _, _, rfl, hi⟩))

theorem digits_of_bare (h : Bare (c :: t) x) (hc : c.isDigit = true) :
    AllOf Char.isDigit (c :: t) ∧ (c :: t).length ≤ maxDigits := by
  rcases bare_cases h with hd | ⟨rfl, -⟩ | ⟨rfl, -⟩ | hm
  · exact hd
  · cases hc
  · cases hc
  · simp only [List.mem_cons, List.not_mem_nil, or_false] at hm
    rcases hm with rfl | rfl | rfl | rfl <;> cases hc

theorem items_of_bare (h : Bare ('[' :: t) x) :
    ∃ es xs, t = es ++ [']'] ∧ Separated Derives es xs := by
  simpa [Char.isDigit] using bare_cases h

theorem members_of_bare (h : Bare ('\x7b' :: t) x) :
    ∃ es ms, t = es ++ ['\x7d'] ∧ Separated (Member Derives) es ms := by
  simpa [Char.isDigit] using bare_cases h

theorem not_closing (hd : Derives ds x) (hl : AllOf isBlank l) (hc : c = ']' ∨ c = '\x7d') :
    l ++ c :: t ≠ ds ++ u := by
  intro he
  have hb : isBlank c = false := by rcases hc with rfl | rfl <;> rfl
  obtain ⟨b, _, hb, -⟩ := bare_of_front hd hl hb he
  rcases hc with rfl | rfl
  · simpa [Char.isDigit] using bare_cases hb
  · simpa [Char.isDigit] using bare_cases hb

theorem derives_text {k : String} (h : Padded Quoted cs k) : Derives cs (.text k) := by
  cases h with
  | pad hl hq hr => exact .pad hl (.string hq) hr

/-- A number has a minus sign in front, or it is digits and more, if anything, that is none. -/
theorem number_cases (h : Number cs) :
    (∃ t, cs = '-' :: t) ∨ ∃ d ds t, cs = d :: ds ++ t ∧ AllOf Char.isDigit (d :: ds) ∧
      ∀ c ∈ t.head?, c = '.' ∨ c = 'e' ∨ c = 'E' := by
  cases h with
  | @number sign ds fs es hs hw hf he =>
    rcases hs with rfl | rfl
    · have hd : ∃ d es, ds = d :: es ∧ AllOf Char.isDigit (d :: es) := by
        cases hw with
        | zero => exact ⟨'0', [], rfl, by simp [Char.isDigit]⟩
        | more hc _ ha => exact ⟨_, _, rfl, allOf_cons.2 ⟨hc, ha⟩⟩
      obtain ⟨d, es', rfl, hd⟩ := hd
      refine .inr ⟨d, es', fs ++ es, by simp, hd, ?_⟩
      cases hf with
      | none =>
        cases he with
        | none => simp
        | power hc =>
          intro c hm
          cases hm
          exact .inr hc
      | point =>
        intro c hm
        cases hm
        exact .inl rfl
    · exact .inl ⟨ds ++ fs ++ es, by simp⟩

/-- A number at the front of a document is its digits and nothing else. -/
theorem plain_of_number (h : Number cs) (hd : Derives ds x) (hl : AllOf isBlank l)
    (hr : AllOf isBlank r) (ht : Closed t) (hu : Closed u)
    (he : l ++ cs ++ r ++ t = ds ++ u) : AllOf Char.isDigit cs ∧ cs.length ≤ maxDigits := by
  rcases number_cases h with ⟨m, rfl⟩ | ⟨d, es, m, rfl, ha, hm⟩
  · have he : l ++ '-' :: (m ++ r ++ t) = ds ++ u := by simpa using he
    obtain ⟨b, _, hb, -⟩ := bare_of_front hd hl rfl he
    simpa [Char.isDigit] using bare_cases hb
  · have hb := (allOf_cons.1 ha).1
    have he : l ++ d :: (es ++ (m ++ (r ++ t))) = ds ++ u := by simpa using he
    obtain ⟨b, q, hb, hq, he⟩ := bare_of_front hd hl (not_isBlank_of_isDigit hb) he
    obtain ⟨hb, hlen⟩ := digits_of_bare hb (allOf_cons.1 ha).1
    have hc : ClearOf Char.isDigit (m ++ (r ++ t)) := by
      cases m with
      | nil => exact ht.clearOf hr
      | cons c m =>
        rcases hm c rfl with rfl | rfl | rfl
        · exact clearOf_cons.2 rfl
        · exact clearOf_cons.2 rfl
        · exact clearOf_cons.2 rfl
    obtain ⟨rfl, hmr⟩ := stretch_unique (allOf_cons.1 ha).2 hc (allOf_cons.1 hb).2 (hu.clearOf hq) he
    cases m with
    | nil =>
      rw [List.append_nil]
      exact ⟨hb, hlen⟩
    | cons c m =>
      have hh := hu.head hq c (by rw [← hmr]; rfl)
      rcases hm c rfl with rfl | rfl | rfl
      · rcases hh with hh | hh | hh | hh <;> cases hh
      · rcases hh with hh | hh | hh | hh <;> cases hh
      · rcases hh with hh | hh | hh | hh <;> cases hh

/-- What is between the brackets of an array. -/
theorem inside_array {a b s : List Char} (ha : Mark '[' a) (hb : Mark ']' b) (hl : AllOf isBlank l)
    (hd : Derives ds x) (he : l ++ (a ++ cs ++ b) ++ r ++ s = ds ++ u) :
    ∃ l r t v es xs, AllOf isBlank l ∧ AllOf isBlank r ∧ Separated Derives es xs ∧
      l ++ cs ++ r ++ ']' :: t = es ++ ']' :: v := by
  cases ha with
  | @mark la ra hla hra =>
    cases hb with
    | @mark lb rb hlb hrb =>
      have he : l ++ la ++ '[' :: (ra ++ cs ++ lb ++ ']' :: (rb ++ r ++ s)) = ds ++ u := by
        simpa using he
      have hla := allOf_append.2 ⟨hl, allOf_isBlank hla⟩
      obtain ⟨b, q, hb, hq, he⟩ := bare_of_front hd hla rfl he
      obtain ⟨es, xs, rfl, hs⟩ := items_of_bare hb
      exact ⟨ra, lb, _, _, es, xs, allOf_isBlank hra, allOf_isBlank hlb, hs, by simpa using he⟩

/-- What is between the brackets of an object. -/
theorem inside_object {a b s : List Char} (ha : Mark '\x7b' a) (hb : Mark '\x7d' b)
    (hl : AllOf isBlank l) (hd : Derives ds x) (he : l ++ (a ++ cs ++ b) ++ r ++ s = ds ++ u) :
    ∃ l r t v es ms, AllOf isBlank l ∧ AllOf isBlank r ∧ Separated (Member Derives) es ms ∧
      l ++ cs ++ r ++ '\x7d' :: t = es ++ '\x7d' :: v := by
  cases ha with
  | @mark la ra hla hra =>
    cases hb with
    | @mark lb rb hlb hrb =>
      have he : l ++ la ++ '\x7b' :: (ra ++ cs ++ lb ++ '\x7d' :: (rb ++ r ++ s)) = ds ++ u := by
        simpa using he
      have hla := allOf_append.2 ⟨hl, allOf_isBlank hla⟩
      obtain ⟨b, q, hb, hq, he⟩ := bare_of_front hd hla rfl he
      obtain ⟨es, ms, rfl, hs⟩ := members_of_bare hb
      exact ⟨ra, lb, _, _, es, ms, allOf_isBlank hra, allOf_isBlank hlb, hs, by simpa using he⟩

end

/-- Of what `E` describes, whatever begins with these characters goes just as far as they do, and
then `Q` is so. -/
def Meets {α β : Type} (E : List Char → β → Prop) (Q : α → Prop) (cs : List Char) (a : α) : Prop :=
  ∀ l r t es u b, AllOf isBlank l → AllOf isBlank r → Closed t → Closed u → E es b →
    l ++ cs ++ r ++ t = es ++ u → l ++ cs ++ r = es ∧ Q a

section
variable {α β : Type} {E : List Char → β → Prop} {Q : α → Prop} {cs : List Char} {a : α}
  {as : List α} {t : Tree}

/-- Where two lists have one text, the items of the first are found in the second one by one. -/
theorem meets_listed (h : Listed (Meets E Q) cs as) :
    ∀ l r t es u bs c, AllOf isBlank l → AllOf isBlank r → c = ']' ∨ c = '\x7d' →
      Separated E es bs → l ++ cs ++ r ++ c :: t = es ++ c :: u → ∀ a ∈ as, Q a := by
  -- A comma or a bracket follows every item of either list, so the first items have one text, and
  -- with it what is behind them is known to be the same.
  induction h with
  | one ha =>
    intro l r t es u bs c hl hr hc hs he
    cases hs with
    | one hb => simpa using (ha l r _ es _ _ hl hr (closed_bracket hc) (closed_bracket hc) hb he).2
    | @more es fs b bs hb hbs =>
      have he := he.trans (show _ = es ++ ',' :: (fs ++ c :: u) by simp)
      simpa using (ha l r _ es _ b hl hr (closed_bracket hc) closed_comma hb he).2
  | @more cs ms ds a as ha hm _ ih =>
    intro l r t es u bs c hl hr hc hs he
    cases hm with
    | @mark ml mr hml hmr =>
      have hml := allOf_isBlank hml
      have hmr := allOf_isBlank hmr
      have he : l ++ cs ++ ml ++ ',' :: (mr ++ ds ++ r ++ c :: t) = es ++ c :: u := by
        simpa using he
      cases hs with
      | one hb =>
        obtain ⟨rfl, -⟩ := ha l ml _ es _ _ hl hml closed_comma (closed_bracket hc) hb he
        obtain ⟨rfl, -⟩ := List.cons.inj (List.append_cancel_left he)
        rcases hc with hc | hc <;> cases hc
      | @more es fs b bs hb hbs =>
        have he := he.trans (show _ = es ++ ',' :: (fs ++ c :: u) by simp)
        obtain ⟨rfl, hq⟩ := ha l ml _ es _ b hl hml closed_comma closed_comma hb he
        have he := (List.cons.inj (List.append_cancel_left he)).2
        exact List.forall_mem_cons.2 ⟨hq, ih mr r t fs u bs c hmr hr hc hbs he⟩

theorem meets_entry {m : List Piece × Tree} (hn : .short '"' ∉ m.1)
    (h : Entry (fun ds u => Meets Derives Tree.Plain ds u) cs m) :
    Meets (Member Derives) (fun m => .short '"' ∉ m.1 ∧ m.2.Plain) cs m := by
  intro l r t es u b hl hr ht hu hb he
  cases h with
  | @pair ks ms ds ps v hk hm hd =>
    cases hm with
    | @mark ml mr hml hmr =>
      cases hb with
      | @pair qs fs q y hq hy =>
        have he : l ++ ks ++ ml ++ ':' :: (mr ++ ds ++ r ++ t) = qs ++ ':' :: (fs ++ u) := by
          simpa using he
        have hk := (Padded.of_bare (quoted_of_spelled hk hn)).widen hl (allOf_isBlank hml)
        obtain rfl := key_front hk hq he
        have he := (List.cons.inj (List.append_cancel_left he)).2
        obtain ⟨rfl, hp⟩ := hd mr r t fs u y (allOf_isBlank hmr) hr ht hu hy he
        exact ⟨by simp, hn, hp⟩

/-- Where a document begins with these characters, their tree is plain. -/
def Fits (cs : List Char) (t : Tree) : Prop :=
  ∀ l r s es u x, AllOf isBlank l → AllOf isBlank r → Closed s → Closed u → Derives es x →
    l ++ cs ++ r ++ s = es ++ u → t.Plain

theorem fits_of_plain (h : t.Plain) : Fits cs t := by
  intro _ _ _ _ _ _ _ _ _ _ _ _
  exact h

/-- Then the document also ends with them, for what is plain is a document itself. -/
theorem Fits.meets (h : Fits cs t) (hw : Written cs t) : Meets Derives Tree.Plain cs t := by
  intro l r s es u x hl hr hs hu hd he
  have hp := h l r s es u x hl hr hs hu hd he
  have hw := (derives_of_written (fun _ => .null) hw hp).widen hl hr
  exact ⟨(derives_front hw hd (hs.ends _) (hu.ends _) he).1, hp⟩

theorem fits_of_written (h : Written cs t) : t.Unescaped → Fits cs t := by
  let P : List Char → Tree → Prop := fun cs t => t.Unescaped → Fits cs t
  have hi : ∀ ds u, Written ds u ∧ P ds u → u.Unescaped → Meets Derives Tree.Plain ds u :=
    fun _ _ hd hu => (hd.2 hu).meets hd.1
  refine Written.nested (P := P) ?null ?bool ?number ?text ?noItems ?array ?noEntries ?object h
  case null => exact fun _ => fits_of_plain Tree.plain_null
  case bool => exact fun b _ => fits_of_plain (Tree.plain_bool b)
  case number =>
    intro cs hn _ l r s es u x hl hr hs hu hd he
    exact Tree.plain_number.2 (plain_of_number hn hd hl hr hs hu he)
  case text =>
    intro cs ps _ hu
    exact fits_of_plain (Tree.plain_text.2 (Tree.unescaped_text.1 hu))
  case noItems =>
    intro a b ha hb _ l r s es u x hl _ _ _ hd he
    have he : l ++ (a ++ [] ++ b) ++ r ++ s = es ++ u := by rwa [List.append_nil]
    obtain ⟨l, r, t, v, fs, xs, hl, hr, hs, he⟩ := inside_array ha hb hl hd he
    obtain ⟨gs, y, w, rfl, hy⟩ := hs.head
    rw [List.append_nil, List.append_assoc gs] at he
    exact (not_closing hy (allOf_append.2 ⟨hl, hr⟩) (.inl rfl) he).elim
  case array =>
    intro a cs b ts ha hc hb hu l r s es u x hl _ _ _ hd he
    obtain ⟨l, r, t, v, fs, xs, hl, hr, hs, he⟩ := inside_array ha hb hl hd he
    have hc' := hc.imp fun ds t ht hd => hi ds t hd (Tree.unescaped_array.1 hu t ht)
    exact Tree.plain_array.2 ⟨hc.ne_nil, meets_listed hc' l r t fs v xs _ hl hr (.inl rfl) hs he⟩
  case noEntries =>
    intro a b ha hb _ l r s es u x hl _ _ _ hd he
    have he : l ++ (a ++ [] ++ b) ++ r ++ s = es ++ u := by rwa [List.append_nil]
    obtain ⟨l, r, t, v, fs, ms, hl, hr, hs, he⟩ := inside_object ha hb hl hd he
    obtain ⟨gs, m, w, rfl, hm⟩ := hs.head
    cases hm with
    | @pair ks cs k y hk =>
      have he : l ++ r ++ '\x7d' :: t = ks ++ (':' :: cs ++ w ++ '\x7d' :: v) := by simpa using he
      exact (not_closing (derives_text hk) (allOf_append.2 ⟨hl, hr⟩) (.inr rfl) he).elim
  case object =>
    intro a cs b ms ha hc hb hu l r s es u x hl _ _ _ hd he
    obtain ⟨l, r, t, v, fs, ns, hl, hr, hs, he⟩ := inside_object ha hb hl hd he
    have hu := Tree.unescaped_object.1 hu
    have hc' : Listed (Meets (Member Derives) fun m => .short '"' ∉ m.1 ∧ m.2.Plain) cs ms := by
      refine hc.imp fun ds m hm hd => meets_entry (hu m hm).1 ?_
      cases hd with
      | pair hk hc hd => exact .pair hk hc (hi _ _ hd (hu _ hm).2)
    exact Tree.plain_object.2 ⟨hc.ne_nil, meets_listed hc' l r t fs v ns _ hl hr (.inr rfl) hs he⟩

/-- A text of the standard's syntax that is a document has a plain tree. -/
theorem plain_of_derives {x : Value} (h : Valid cs t) (hd : Derives cs x) : t.Plain := by
  have hu := unescaped_of_derives h hd
  cases h with
  | pad hl hw hr =>
    exact fits_of_written hw hu _ _ [] _ [] x (allOf_isBlank hl) (allOf_isBlank hr) (.inl rfl)
      (.inl rfl) hd rfl

theorem derives_of_plain (real : List Char → Value) (h : Valid cs t) (hp : t.Plain) :
    Derives cs (t.value rawText real) := by
  cases h with
  | pad hl hw hr =>
    exact (derives_of_written real hw hp).widen (allOf_isBlank hl) (allOf_isBlank hr)

/-- Of all that is written in the standard's syntax the plain trees are read, with their values,
where texts are taken as they are written; the others are refused. -/
theorem read_valid (real : List Char → Value) (s : String) (t : Tree) (h : Valid s.toList t) :
    ((∃ x, Document.read s = .ok x) ↔ t.Plain) ∧
      (∀ x, Document.read s = .ok x →
        x = t.value rawText real ∧ ('\\' ∉ s.toList → x = t.value decodedText real)) ∧
      (¬ t.Plain → ∃ e, Document.read s = .error e) := by
  have hd : ∀ x, Document.read s = .ok x → Derives s.toList x := fun _ => Document.derives_of_read
  refine ⟨⟨fun hh => ?_, fun hp => ?_⟩, fun x hx => ?_, fun hn => ?_⟩
  · obtain ⟨x, hx⟩ := hh
    exact plain_of_derives h (hd x hx)
  · exact ⟨_, Document.read_of_derives (derives_of_plain real h hp)⟩
  · have hv := derives_of_plain real h (plain_of_derives h (hd x hx))
    obtain rfl := Document.derives_unique (hd x hx) hv
    refine ⟨rfl, fun hb => ?_⟩
    generalize hs : s.toList = cs at h hb
    cases h with
    | pad _ hw _ =>
      simp only [List.mem_append, not_or] at hb
      exact (value_decoded hw hb.1.2).symm
  · cases hr : Document.read s with
    | error e => exact ⟨e, rfl⟩
    | ok x => exact (hn (plain_of_derives h (hd x hr))).elim

/-- An array with a number and an escaped line end. -/
theorem read_valid_array :
    Valid "[10, \"\\n\"]".toList (.array [.number ['1', '0'], .text [.short 'n']]) ∧
      Document.read "[10, \"\\n\"]" = .ok (.list [.int 10, .text "\\n"]) := by
  have hn : Number ['1', '0'] := by
    have hw : Whole ['1', '0'] := .more rfl (by decide) (by simp [Char.isDigit])
    exact .number (.inl rfl) hw .none .none
  have ht : Spelled ['"', '\\', 'n', '"'] [.short 'n'] := @Spelled.spelled [.short 'n'] (by decide)
  have hm : ∀ c, Mark c [c] := fun c => .mark (l := []) (r := []) allOf_nil allOf_nil
  have hc : Mark ',' [',', ' '] := .mark (l := []) (r := [' ']) allOf_nil (by simp)
  have hl := Listed.more (Written.number hn) hc (.one (.text ht))
  have hv : Valid "[10, \"\\n\"]".toList (.array [.number ['1', '0'], .text [.short 'n']]) :=
    .pad (l := []) (r := []) allOf_nil (.array (hm '[') hl (hm ']')) allOf_nil
  have hp : (Tree.array [.number ['1', '0'], .text [.short 'n']]).Plain := by
    have hd := Tree.plain_number.2 (⟨by simp [Char.isDigit], by decide⟩ :
      AllOf Char.isDigit ['1', '0'] ∧ ['1', '0'].length ≤ maxDigits)
    have hq := Tree.plain_text.2 (show Piece.short '"' ∉ [.short 'n'] by decide)
    simp [Tree.plain_array, hd, hq]
  obtain ⟨hr, hx, -⟩ := read_valid (fun _ => .null) _ _ hv
  obtain ⟨x, hr⟩ := hr.2 hp
  refine ⟨hv, ?_⟩
  rw [hr, (hx x hr).1]
  rfl

end

end PlainJson.Interchange
