import PlainJson.Proofs.Settings.Lax

/-!
Valid settings. A field keeps what it accepts in one form of its own, and takes this form for what
it is. So settings are valid whatever they were loaded from, and whatever is assigned to them later.
-/
set_option autoImplicit false

namespace PlainJson

namespace Field

def levelNames : List String := ["DEBUG", "INFO", "WARNING", "ERROR", "CRITICAL"]

theorem mem_levelNames_of_checkLevel {s t : String} (h : checkLevel s = some t) :
    t ∈ levelNames := by
  unfold checkLevel at h
  dsimp only at h
  split at h
  · rename_i hc
    cases h
    exact List.contains_iff_mem.1 hc
  · cases h

end Field

namespace Library

variable {L : Library}

/-- The values that a field keeps. -/
def Fits (L : Library) : Field → L.Raw → Prop
  | .debug, x | .useRich, x => ∃ b, x = L.plain (.bool b)
  | .severity, x => ∃ name ∈ Field.levelNames, x = L.plain (.text name)
  | .snippetLength, x => ∃ i, 1 ≤ i ∧ x = L.plain (.int i)
  | .filePath, x | .formatString, x => x = L.plain .null ∨ ∃ t, x = L.plain (.text t)

/-- Every field has a value that fits it. -/
def Valid (L : Library) (v : Field → L.Raw) : Prop := ∀ f, L.Fits f (v f)

section
variable {f : Field} {x y : L.Raw}

theorem Checks.optional_text (hc : L.Checks) (h : L.validate (.optional .text) x = .ok y) :
    y = L.plain .null ∨ ∃ t, y = L.plain (.text t) := by
  by_cases hx : x = L.plain .null
  · subst hx
    rw [hc.optional_null] at h
    cases h
    exact .inl rfl
  · rw [hc.optional_of_ne hx] at h
    exact .inr (hc.text h)

/-- What a field keeps fits it. -/
theorem Checks.fits (hc : L.Checks) (h : L.validate f.schema x = .ok y) : L.Fits f y := by
  cases f with
  | debug | useRich => exact hc.bool h
  | snippetLength => exact hc.int h
  | filePath | formatString => exact hc.optional_text h
  | severity =>
    obtain ⟨s, t, -, ht, rfl⟩ := hc.checked h
    exact ⟨t, Field.mem_levelNames_of_checkLevel ht, rfl⟩

end

/-- What is held after some attempts to assign, be they accepted or not. -/
def assignAll (L : Library) (v : Field → L.Raw) (attempts : List (String × L.Raw)) :
    Field → L.Raw :=
  attempts.foldl (fun w a => (L.assign w a.1 a.2).2) v

/-- What an attempt to assign comes to. If it is refused, nothing has changed; if it is accepted, no
other field has changed. -/
structure Attempt (L : Library) (v : Field → L.Raw) (name : String) (x : L.Raw) : Prop where
  refused : ∀ e, (L.assign v name x).1 = .error e → (L.assign v name x).2 = v
  accepted : (L.assign v name x).1 = .ok () →
    ∀ f : Field, f.name ≠ name → (L.assign v name x).2 f = v f

section
variable {v : Field → L.Raw} {name : String} {x : L.Raw}

theorem Assigns.attempt (ha : L.Assigns) (hp : Field.isReserved name = false) :
    L.Attempt v name x := by
  cases hn : Field.ofName? name with
  | none =>
    have he := ha.unknown (v := v) (x := x) hn hp
    exact ⟨fun _ _ => he, fun _ f _ => congrFun he f⟩
  | some f =>
    obtain rfl := Field.eq_of_ofName? hn
    cases hx : L.validate f.schema x with
    | ok y =>
      obtain ⟨hok, -, hother⟩ := ha.accepted (v := v) hx
      refine ⟨fun e h => ?_, fun _ g hg => hother g fun h => hg (congrArg Field.name h)⟩
      rw [hok] at h
      cases h
    | error c =>
      have he := ha.refused (v := v) hx
      refine ⟨fun _ _ => by rw [he], fun h => ?_⟩
      rw [he] at h
      cases h

theorem Valid.assign (hv : L.Valid v) (hc : L.Checks) (ha : L.Assigns)
    (hp : Field.isReserved name = false) : L.Valid (L.assign v name x).2 := by
  cases hn : Field.ofName? name with
  | none =>
    rwa [ha.unknown hn hp]
  | some f =>
    obtain rfl := Field.eq_of_ofName? hn
    cases hx : L.validate f.schema x with
    | ok y =>
      obtain ⟨-, hself, hother⟩ := ha.accepted (v := v) hx
      intro g
      by_cases hg : g = f
      · subst hg
        rw [hself]
        exact hc.fits hx
      · rw [hother g hg]
        exact hv g
    | error c => rwa [ha.refused hx]

theorem Valid.assignAll (hv : L.Valid v) (hc : L.Checks) (ha : L.Assigns)
    {attempts : List (String × L.Raw)} (hp : ∀ a ∈ attempts, Field.isReserved a.1 = false) :
    L.Valid (L.assignAll v attempts) := by
  induction attempts generalizing v with
  | nil => exact hv
  | cons a rest ih =>
    obtain ⟨ha₁, hrest⟩ := List.forall_mem_cons.1 hp
    exact ih (hv.assign hc ha ha₁) hrest

/-- Whatever settings were loaded from, each field has settled its value. -/
theorem valid_of_load {s : Inputs L.Raw} (h : L.load s = .ok v) (hc : L.Checks) (hb : L.Builds)
    (hl : L.Loads) : L.Valid v := by
  obtain ⟨raw, hraw⟩ := hl.loaded h
  exact fun f => hc.fits (hb.built hraw f)

end

end Library

end PlainJson
