import PlainJson.Proofs.Session.Steps
import PlainJson.Proofs.Settings.Validity

/-!
The settings of a session are those of the library that takes values for what they can be read as.
They are what was loaded, and change only where one of them is assigned, in the way of the library;
so what is known of the settings of any library is known of them.
-/
set_option autoImplicit false

namespace PlainJson

open Library (lax lax_checks lax_assigns lax_builds lax_loads)

namespace Settings

variable {s : Settings} {v : Field → Value} {name : String} {x : Value}

theorem textOf?_of_optional {y : Value} (h : y = .null ∨ ∃ t, y = .text t) :
    optionalText (textOf? y) = y := by
  obtain rfl | ⟨t, rfl⟩ := h <;> rfl

theorem truthOf_of_bool {y : Value} (h : ∃ b, y = .bool b) : .bool (truthOf y) = y := by
  obtain ⟨b, rfl⟩ := h
  rfl

theorem severity_of_levelName (h : name ∈ Field.levelNames) :
    ((Severity.ofName? name).getD default.severity).name = name := by
  simp only [Field.levelNames, List.mem_cons, List.not_mem_nil, or_false] at h
  rcases h with rfl | rfl | rfl | rfl | rfl <;> rfl

/-- Values that fit their fields are kept as they are. -/
theorem get_ofValues (h : lax.Valid v) : (ofValues v).get = v := by
  funext f
  cases f with
  | debug => exact truthOf_of_bool (h .debug)
  | useRich => exact truthOf_of_bool (h .useRich)
  | filePath => exact textOf?_of_optional (h .filePath)
  | formatString => exact textOf?_of_optional (h .formatString)
  | snippetLength =>
    obtain ⟨i, hi, hv⟩ := h .snippetLength
    have hv : v .snippetLength = .int i := hv
    simp only [get, ofValues, hv, lengthOf, Int.toNat_of_nonneg (by omega : 0 ≤ i)]
  | severity =>
    obtain ⟨name, hn, hv⟩ := h .severity
    have hv : v .severity = .text name := hv
    simp only [get, ofValues, hv, textOf?, Option.bind_some, severity_of_levelName hn]

/-- An attempt leaves valid settings valid, whatever name it is made for. -/
theorem valid_assign (h : lax.Valid v) (name : String) (x : Value) :
    lax.Valid (lax.assign v name x).2 := by
  cases hn : Field.ofName? name with
  | none => rwa [show (lax.assign v name x).2 = v from Coerce.assign_unknown hn]
  | some f =>
    obtain rfl := Field.eq_of_ofName? hn
    exact h.assign lax_checks lax_assigns (by cases f <;> decide)

theorem get_assign (h : lax.Valid s.get) (name : String) (x : Value) :
    ((s.assign name x).toOption.getD s).get = (lax.assign s.get name x).2 := by
  have hv : lax.Valid (Coerce.assign s.get name x).2 := valid_assign h name x
  show _ = (Coerce.assign s.get name x).2
  unfold assign
  generalize hx : Coerce.assign s.get name x = r at hv
  obtain ⟨e | ⟨⟨⟩⟩, w⟩ := r
  · exact (Coerce.assign_of_error hx).symm
  · exact get_ofValues hv

/-- Loaded settings hold the values that were loaded. -/
theorem load_of_settings {sources : Sources} (h : sources.settings = .ok s) :
    lax.load sources = .ok s.get := by
  unfold Sources.settings at h
  split at h
  · rename_i v hv
    cases h
    rw [get_ofValues (Library.valid_of_load hv lax_checks lax_builds lax_loads)]
    exact hv
  · cases h

end Settings

/-- What a command attempts to assign. -/
def Command.attempt? : Command → Option (String × Value)
  | .set name x => some (name, x)
  | _ => none

theorem Installs.settings {files : FileTree} {r : Resolved} {u v : Setup}
    {x : Except ConfigError Unit} (h : Installs files r u x v) : v.settings = u.settings := by
  cases h <;> rfl

namespace Session

theorem step_settings (s : Session) (c : Command) : (s.step c).2.settings = s.assigned c := by
  by_cases hc : s.SetsUp c
  · obtain ⟨_, hi, -⟩ := step_installs hc
    have hs : (s.step c).2.settings = s.settings := by
      have h := hi.settings
      rwa [noteStart_setup] at h
    cases c with
    | set => exact absurd hc.1 (by simp [Command.asking?])
    | configure | getLogger | log | perf | summary | clock | touch | read | readOr => exact hs
  · exact congrArg Setup.settings (step_keeps hc).1

theorem get_step {s : Session} (h : lax.Valid s.settings.get) (c : Command) :
    (s.step c).2.settings.get = lax.assignAll s.settings.get c.attempt?.toList := by
  rw [step_settings]
  cases c with
  | set name x => exact Settings.get_assign h name x
  | configure | getLogger | log | perf | summary | clock | touch | read | readOr => rfl

/-- The settings after any commands are what the library makes of the attempts among them. -/
theorem get_after {s : Session} (h : lax.Valid s.settings.get) (cs : List Command) :
    (s.after cs).settings.get = lax.assignAll s.settings.get (cs.filterMap Command.attempt?) := by
  induction cs generalizing s with
  | nil => rfl
  | cons c cs ih =>
    -- The settings are valid all the way, so no value is lost in them.
    have hc := get_step h c
    cases ha : c.attempt? with
    | none =>
      rw [ha] at hc
      have hc : (s.step c).2.settings.get = s.settings.get := hc
      rw [after_cons, ih (hc ▸ h), List.filterMap_cons_none ha, hc]
    | some a =>
      rw [ha] at hc
      have hc : (s.step c).2.settings.get = (lax.assign s.settings.get a.1 a.2).2 := hc
      rw [after_cons, ih (hc ▸ Settings.valid_assign h a.1 a.2), List.filterMap_cons_some ha, hc]
      rfl

/-- A session whose settings were loaded has the settings of the library, after any commands. -/
theorem settings_of_library {sources : Sources} {s : Session}
    (h : sources.settings = .ok s.settings) (cs : List Command) :
    ∃ v, lax.load sources = .ok v ∧
      (s.after cs).settings.get = lax.assignAll v (cs.filterMap Command.attempt?) := by
  have hload := Settings.load_of_settings h
  have hv := Library.valid_of_load hload lax_checks lax_builds lax_loads
  exact ⟨_, hload, get_after hv cs⟩

end Session

end PlainJson
