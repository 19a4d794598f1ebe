import PlainJson.Proofs.Grammar.Reading
import PlainJson.Proofs.Interchange.Quotes

/-!
Plain trees are documents: whatever is written of one in the standard's syntax is derived by the
grammar of documents too, with the value of the tree whose texts are left as they are written.
-/
set_option autoImplicit false

namespace PlainJson.Interchange

open PlainJson.Grammar PlainJson.Text

section
variable {α β : Type} {D E : List Char → α → Prop} {l cs r : List Char} {a : α} {as : List α}

/-- White space more or less on both sides makes no difference. -/
def Roomy (D : List Char → α → Prop) : Prop :=
  ∀ l cs r a, AllOf isBlank l → AllOf isBlank r → D cs a → D (l ++ cs ++ r) a

theorem roomy_padded : Roomy (Padded D) := fun _ _ _ _ hl hr h => h.widen hl hr

theorem roomy_member {D : List Char → Value → Prop} (hD : Roomy D) : Roomy (Member D) := by
  intro l cs r m hl hr h
  cases h with
  | @pair ks ds k x hk hd =>
    have hk := hk.widen hl (allOf_nil (f := isBlank))
    have hd := hD [] ds r x allOf_nil hr hd
    have hm := Member.pair hk hd
    simpa using hm

theorem roomy_separated (hD : Roomy D) : Roomy (Separated D) := by
  intro l cs r as hl hr h
  induction h generalizing l with
  | one hd => exact .one (hD _ _ _ _ hl hr hd)
  | more hd _ ih =>
    have hd := hD l _ [] _ hl allOf_nil hd
    have hs := Separated.more hd (ih [] allOf_nil)
    simpa using hs

theorem allOf_isBlank (h : AllOf Char.isWhitespace cs) : AllOf isBlank cs :=
  fun c hc => isBlank_of_isWhitespace c (h c hc)

theorem Listed.imp (h : ∀ cs, ∀ a ∈ as, D cs a → E cs a) (hl : Listed D cs as) :
    Listed E cs as := by
  induction hl with
  | one hd => exact .one (h _ _ (by simp) hd)
  | more hd hm _ ih =>
    exact .more (h _ _ (by simp) hd) hm (ih fun cs a ha => h cs a (by simp [ha]))

theorem separated_of_listed {E : List Char → β → Prop} {f : α → β} (hE : Roomy E)
    (hl : Listed (fun ds a => E ds (f a)) cs as) : Separated E cs (as.map f) := by
  induction hl with
  | one hd => exact .one hd
  | @more cs ms ds a as hd hm _ ih =>
    cases hm with
    | @mark l r hl hr =>
      have hd := hE [] cs l _ allOf_nil (allOf_isBlank hl) hd
      have hs := roomy_separated hE r ds [] _ (allOf_isBlank hr) allOf_nil ih
      have hm := Separated.more hd hs
      simpa using hm

end

namespace Tree

variable {text : List Piece → String} {real : List Char → Value}

theorem values_eq (ts : List Tree) : values text real ts = ts.map (value text real) := by
  induction ts with
  | nil => simp [values]
  | cons t ts ih => simp [values, ih]

theorem entries_eq (ms : List (List Piece × Tree)) :
    entries text real ms = ms.map fun m => (text m.1, m.2.value text real) := by
  induction ms with
  | nil => simp [entries]
  | cons m ms ih => simp [entries, ih]

end Tree

variable {real : List Char → Value} {cs : List Char} {ps : List Piece} {t : Tree}

theorem quoted_of_spelled (h : Spelled cs ps) (hn : .short '"' ∉ ps) : Quoted cs (rawText ps) := by
  cases h with
  | spelled hp =>
    refine .quoted fun hm => ?_
    obtain ⟨p, hps, hq⟩ := List.mem_flatMap.1 hm
    exact Piece.not_mem_raw (hp p hps) (fun he => hn (he ▸ hps)) hq

theorem Number.ne_nil (h : Number cs) : cs ≠ [] := by
  cases h with
  | number _ hw => cases hw <;> simp

theorem whole?_digits (h : AllOf Char.isDigit cs) : whole? cs = some (decimalValue cs : Int) := by
  have ha : cs.all Char.isDigit = true := List.all_eq_true.2 h
  unfold whole?
  split
  · have hm := h '-' (by simp)
    cases hm
  · rw [if_pos ha]

theorem array_of_marks {a b : List Char} {xs : List Value} (ha : Mark '[' a)
    (hs : Separated Derives cs xs) (hb : Mark ']' b) : Derives (a ++ cs ++ b) (.list xs) := by
  cases ha with
  | @mark l r hl hr =>
    cases hb with
    | @mark l' r' hl' hr' =>
      have hi := roomy_separated roomy_padded r cs l' xs (allOf_isBlank hr) (allOf_isBlank hl') hs
      have hd := Padded.pad (allOf_isBlank hl) (Bare.array hi) (allOf_isBlank hr')
      simpa using hd

theorem object_of_marks {a b : List Char} {ms : List (String × Value)} (ha : Mark '\x7b' a)
    (hs : Separated (Member Derives) cs ms) (hb : Mark '\x7d' b) :
    Derives (a ++ cs ++ b) (.dict (entriesOf ms)) := by
  cases ha with
  | @mark l r hl hr =>
    cases hb with
    | @mark l' r' hl' hr' =>
      have hi := roomy_separated (roomy_member roomy_padded) r cs l' ms (allOf_isBlank hr)
        (allOf_isBlank hl') hs
      have ho := Bare.object hi (keepsLast_entriesOf ms)
      have hd := Padded.pad (allOf_isBlank hl) ho (allOf_isBlank hr')
      simpa using hd

theorem member_of_entry {m : List Piece × Tree} {x : Value} (hn : .short '"' ∉ m.1)
    (h : Entry (fun ds _ => Derives ds x) cs m) : Member Derives cs (rawText m.1, x) := by
  cases h with
  | @pair ks ms cs ps u hk hm hd =>
    cases hm with
    | @mark l r hl hr =>
      have hk := (Padded.of_bare (quoted_of_spelled hk hn)).widen allOf_nil (allOf_isBlank hl)
      have hd := hd.widen (allOf_isBlank hr) allOf_nil
      have hp := Member.pair hk hd
      simpa using hp

/-- What is written of a plain tree is derived, with its value. -/
theorem derives_of_written (real : List Char → Value) (h : Written cs t) :
    t.Plain → Derives cs (t.value rawText real) := by
  let P : List Char → Tree → Prop := fun cs t => t.Plain → Derives cs (t.value rawText real)
  refine Written.nested (P := P) ?null ?bool ?number ?text ?noItems ?array ?noEntries ?object h
  case null =>
    intro _
    exact Padded.of_bare .null
  case bool =>
    intro b _
    exact Padded.of_bare (.bool b)
  case number =>
    intro cs hn hp
    obtain ⟨ha, hl⟩ := Tree.plain_number.1 hp
    simp only [Tree.value, whole?_digits ha, Option.elim_some]
    exact Padded.of_bare (.number hn.ne_nil hl ha)
  case text =>
    intro cs ps hs hp
    exact Padded.of_bare (.string (quoted_of_spelled hs (Tree.plain_text.1 hp)))
  case noItems =>
    intro a b _ _ hp
    exact ((Tree.plain_array.1 hp).1 rfl).elim
  case array =>
    intro a cs b ts ha hl hb hp
    have hp := (Tree.plain_array.1 hp).2
    have hd := hl.imp fun ds u hu hd => hd.2 (hp u hu)
    simp only [Tree.value, Tree.values_eq]
    exact array_of_marks ha (separated_of_listed roomy_padded hd) hb
  case noEntries =>
    intro a b _ _ hp
    exact ((Tree.plain_object.1 hp).1 rfl).elim
  case object =>
    intro a cs b ms ha hl hb hp
    have hp := (Tree.plain_object.1 hp).2
    have hd : Listed (fun ds m => Member Derives ds (rawText m.1, m.2.value rawText real)) cs ms := by
      refine hl.imp fun ds m hm hd => member_of_entry (hp m hm).1 ?_
      cases hd with
      | pair hk hc hd => exact .pair hk hc (hd.2 (hp _ hm).2)
    simp only [Tree.value, Tree.entries_eq]
    exact object_of_marks ha (separated_of_listed (roomy_member roomy_padded) hd) hb

theorem decode_raw (h : '\\' ∉ ps.flatMap Piece.raw) : Piece.decode ps = ps.flatMap Piece.raw := by
  induction ps with
  | nil => rfl
  | cons p ps ih =>
    cases p with
    | plain c =>
      have hn : '\\' ∉ ps.flatMap Piece.raw := fun hm => h (by simp [hm])
      simp [Piece.decode, Piece.raw, ih hn]
    | short c => exact (h (by simp [Piece.raw])).elim
    | code a b c d => exact (h (by simp [Piece.raw])).elim

theorem decodedText_of_spelled (h : Spelled cs ps) (hn : '\\' ∉ cs) : decodedText ps = rawText ps := by
  cases h with
  | spelled => exact congrArg String.ofList (decode_raw fun hm => hn (by simp [hm]))

theorem map_eq_of_listed {α β : Type} {D : List Char → α → Prop} {f g : α → β} {as : List α}
    (h : ∀ ds a, D ds a → '\\' ∉ ds → f a = g a) (hl : Listed D cs as) (hn : '\\' ∉ cs) :
    as.map f = as.map g := by
  induction hl with
  | one hd => simp [h _ _ hd hn]
  | more hd _ _ ih =>
    simp only [List.mem_append, not_or] at hn
    simp [h _ _ hd hn.1.1, ih hn.2]

/-- Without backslashes all characters of the texts are meant as they are written. -/
theorem value_decoded (h : Written cs t) :
    '\\' ∉ cs → t.value decodedText real = t.value rawText real := by
  let P : List Char → Tree → Prop := fun cs t =>
    '\\' ∉ cs → t.value decodedText real = t.value rawText real
  refine Written.nested (P := P) ?null ?bool ?number ?text ?noItems ?array ?noEntries ?object h
  case null => exact fun _ => rfl
  case bool => exact fun _ _ => rfl
  case number => exact fun _ _ => rfl
  case text =>
    intro cs ps hs hn
    simp only [Tree.value, decodedText_of_spelled hs hn]
  case noItems => exact fun _ _ _ => rfl
  case array =>
    intro a cs b ts _ hl _ hn
    simp only [List.mem_append, not_or] at hn
    simp only [Tree.value, Tree.values_eq]
    rw [map_eq_of_listed (fun _ _ hd => hd.2) hl hn.1.2]
  case noEntries => exact fun _ _ _ => rfl
  case object =>
    intro a cs b ms _ hl _ hn
    simp only [List.mem_append, not_or] at hn
    simp only [Tree.value, Tree.entries_eq]
    refine congrArg (fun es => Value.dict (entriesOf es)) (map_eq_of_listed ?_ hl hn.1.2)
    intro ds m hd hn
    cases hd with
    | pair hk _ hd =>
      simp only [List.mem_append, not_or] at hn
      rw [decodedText_of_spelled hk hn.1.1, hd.2 hn.2]

end PlainJson.Interchange
