import PlainJson.Settings.Sources

/-!
The library that takes values for what they can be read as keeps all the laws.
-/
set_option autoImplicit false

namespace PlainJson

namespace Coerce

variable {f : Field} {x y : Value} {c : Complaint} {raw : Field → Option Value}

theorem exists_of_map_ok {ε α β : Type} {x : Except ε α} {g : α → β} {y : β}
    (h : x.map g = .ok y) : ∃ a, x = .ok a ∧ y = g a := by
  cases x <;> cases h
  exact ⟨_, rfl, rfl⟩

theorem validate_int {least : Int} (h : validate (.int least) x = .ok y) :
    ∃ i, least ≤ i ∧ y = .int i := by
  simp only [validate] at h
  split at h
  · cases h
  · split at h
    · cases h
    · cases h
      exact ⟨_, Int.not_lt.1 ‹_›, rfl⟩

theorem validate_checked {check : String → Option String}
    (h : validate (.checked check) x = .ok y) :
    ∃ s t, validate .text x = .ok (.text s) ∧ check s = some t ∧ y = .text t := by
  simp only [validate] at h ⊢
  cases ht : toText x with
  | error c =>
    rw [ht] at h
    cases h
  | ok s =>
    rw [ht] at h
    dsimp only at h
    cases hk : check s with
    | none =>
      rw [hk] at h
      cases h
    | some t =>
      rw [hk] at h
      cases h
      exact ⟨s, t, rfl, hk, rfl⟩

theorem toText_of_validate {s : String} (h : validate .text x = .ok (.text s)) :
    toText x = .ok s := by
  obtain ⟨t, ht, hs⟩ := exists_of_map_ok h
  cases hs
  exact ht

theorem assign_accepted {v : Field → Value} (h : validate f.schema x = .ok y) :
    assign v f.name x = (.ok (), fun g => if g = f then y else v g) := by
  simp only [assign, Field.ofName?_name, h]

theorem assign_accepted_get {v : Field → Value} (h : validate f.schema x = .ok y) :
    (assign v f.name x).1 = .ok () ∧ (assign v f.name x).2 f = y ∧
      ∀ g, g ≠ f → (assign v f.name x).2 g = v g := by
  rw [assign_accepted h]
  exact ⟨rfl, if_pos rfl, fun g hg => if_neg hg⟩

theorem assign_refused {v : Field → Value} (h : validate f.schema x = .error c) :
    assign v f.name x = (.error [(f.name, c)], v) := by
  simp only [assign, Field.ofName?_name, h]

theorem assign_unknown {v : Field → Value} {name : String} (hn : Field.ofName? name = none) :
    (assign v name x).2 = v := by
  simp only [assign, hn]

theorem assign_of_error {v w : Field → Value} {name : String} {e : List (String × Complaint)}
    (h : assign v name x = (.error e, w)) : w = v := by
  cases hn : Field.ofName? name with
  | none => rw [← assign_unknown (v := v) (x := x) hn, h]
  | some f =>
    obtain rfl := Field.eq_of_ofName? hn
    cases hx : validate f.schema x with
    | ok y =>
      rw [assign_accepted hx] at h
      cases h
    | error c =>
      rw [assign_refused hx] at h
      cases h
      rfl

theorem mem_complaints {name : String} :
    (name, c) ∈ Field.all.filterMap (complaint? raw) ↔
      ∃ f : Field, f.name = name ∧ settle f (raw f) = .error c := by
  rw [List.mem_filterMap]
  refine exists_congr fun f => ?_
  simp only [complaint?, Field.mem_all, true_and]
  cases settle f (raw f) <;> simp

theorem nodup_complaints : ((Field.all.filterMap (complaint? raw)).map Prod.fst).Nodup := by
  have hall : Field.all.Nodup := by decide
  refine List.pairwise_map.2 (List.Pairwise.filterMap _ (fun f g hne b hb d hd => ?_) hall)
  have hname {f : Field} {b : String × Complaint} (h : complaint? raw f = some b) :
      b.1 = f.name := by
    unfold complaint? at h
    split at h
    · cases h
    · cases h
      rfl
  rw [hname hb, hname hd]
  exact fun he => hne (Field.name_injective he)

theorem complaint?_eq_none (h : complaint? raw f = none) : ∃ y, settle f (raw f) = .ok y := by
  unfold complaint? at h
  split at h
  · exact ⟨_, ‹_›⟩
  · cases h

theorem settle_of_build {v : Field → Value} (h : build raw = .ok v) (f : Field) :
    settle f (raw f) = .ok (v f) := by
  unfold build at h
  split at h
  · rename_i hnil
    cases h
    obtain ⟨y, hy⟩ := complaint?_eq_none (List.filterMap_eq_nil_iff.1 hnil f f.mem_all)
    simp only [hy, Except.toOption, Option.getD_some]
  · cases h

theorem complaints_of_build {cs : List (String × Complaint)} (h : build raw = .error cs) :
    cs ≠ [] ∧ cs = Field.all.filterMap (complaint? raw) := by
  unfold build at h
  split at h
  · cases h
  · rename_i hcs
    cases h
    exact ⟨fun hnil => hcs hnil, rfl⟩

end Coerce

section
variable {β : Type} {entries : List (String × β)} {f : Field} {name : String} {x : β}

theorem NamedOnce.reverse (h : NamedOnce entries) : NamedOnce entries.reverse :=
  List.pairwise_reverse.2 (h.imp fun hde f he hd => hde f hd he)

theorem NamedOnce.tail {e : String × β} (h : NamedOnce (e :: entries)) : NamedOnce entries :=
  (List.pairwise_cons.1 h).2

end

namespace Sources

variable {β : Type} {entries : List (String × β)} {f : Field} {x : β}

theorem isNamed_iff (f : Field) (name : String) (x : β) :
    isNamed f (name, x) = true ↔ lowerName name = f.name := beq_iff_eq

theorem firstNamed_of_gives (h : NamedOnce entries) (hg : Gives f entries x) :
    firstNamed entries f = some x := by
  obtain ⟨name, hm, hn⟩ := hg
  induction entries with
  | nil => cases hm
  | cons e rest ih =>
    obtain ⟨other, y⟩ := e
    rcases List.mem_cons.1 hm with heq | hm
    · cases heq
      rw [firstNamed, List.find?_cons_of_pos ((isNamed_iff f name x).2 hn)]
      rfl
    · have hne : ¬isNamed f (other, y) = true := by
        rw [isNamed_iff]
        exact fun hf => (List.pairwise_cons.1 h).1 (name, x) hm f hf hn
      rw [firstNamed, List.find?_cons_of_neg hne]
      exact ih h.tail hm

theorem gives_of_firstNamed (h : firstNamed entries f = some x) : Gives f entries x := by
  obtain ⟨⟨name, y⟩, he, rfl⟩ := Option.map_eq_some_iff.1 h
  have hn : isNamed f (name, y) = true := List.find?_some he
  exact ⟨name, List.mem_of_find?_eq_some he, (isNamed_iff f name y).1 hn⟩

theorem gives_reverse : Gives f entries.reverse x ↔ Gives f entries x := by
  simp only [Gives, List.mem_reverse]

theorem lastNamed_of_gives (h : NamedOnce entries) (hg : Gives f entries x) :
    lastNamed entries f = some x :=
  firstNamed_of_gives h.reverse (gives_reverse.2 hg)

theorem gives_of_lastNamed (h : lastNamed entries f = some x) : Gives f entries x :=
  gives_reverse.1 (gives_of_firstNamed h)

theorem firstNamed_eq_none (h : ¬Names f entries) : firstNamed entries f = none := by
  cases hf : firstNamed entries f with
  | none => rfl
  | some x => exact absurd ⟨x, gives_of_firstNamed hf⟩ h

theorem variableOf_of_gives {entries : List (String × Option String)} {text : String}
    (h : NamedOnce entries) (hg : Gives f entries (some text)) :
    variableOf entries f = some (.text text) := by
  rw [variableOf, lastNamed_of_gives h hg]
  rfl

theorem variableOf_eq_none {entries : List (String × Option String)}
    (h : ∀ text, ¬Gives f entries (some text)) : variableOf entries f = none := by
  cases hl : lastNamed entries f with
  | none => simp [variableOf, hl]
  | some value =>
    cases value with
    | none => simp [variableOf, hl]
    | some text => exact absurd (gives_of_lastNamed hl) (h text)

end Sources

namespace Library

theorem lax_checks : lax.Checks where
  plain_injective {a b} h := by cases a <;> cases b <;> simp_all [Coerce.plain]
  bool h := (Coerce.exists_of_map_ok h).imp fun _ => And.right
  bool_self _ := rfl
  int h := Coerce.validate_int h
  int_self {least i} hi := by
    simp only [Coerce.validate, Coerce.plain, Coerce.toInt]
    rw [if_neg (Int.not_lt.2 hi)]
  text h := (Coerce.exists_of_map_ok h).imp fun _ => And.right
  text_self _ := rfl
  checked h := Coerce.validate_checked h
  checked_some {check x s t} hs ht := by
    simp only [Coerce.validate, Coerce.toText_of_validate hs, ht]
    rfl
  optional_null _ := rfl
  optional_of_ne {inner x} hx := by
    cases x with
    | null => exact absurd rfl hx
    | bool | int | double | text | list | tuple | dict => rfl

theorem lax_assigns : lax.Assigns where
  accepted h := Coerce.assign_accepted_get h
  refused h := Coerce.assign_refused h
  unknown hn _ := Coerce.assign_unknown hn

theorem lax_builds : lax.Builds where
  built h f := Coerce.settle_of_build h f
  complained h := by
    obtain ⟨hne, rfl⟩ := Coerce.complaints_of_build h
    exact ⟨hne, Coerce.nodup_complaints, fun _ _ => Coerce.mem_complaints⟩

theorem lax_loads : lax.Loads where
  argument_of_gives h hg := Sources.firstNamed_of_gives h hg
  argument_eq_none h := Sources.firstNamed_eq_none h
  variable_of_gives h hg := Sources.variableOf_of_gives h hg
  variable_eq_none h := Sources.variableOf_eq_none h
  order _ := rfl
  loaded h := ⟨_, h⟩

end Library

end PlainJson
