import PlainJson.Proofs.Session.Steps

/-!
What configuring leaves behind. Where it fails, the settings and the mark that logging is configured
stay as they were, but not always the root: only an unknown level is found out before the level and
the handlers are touched. Where it succeeds, one handler writes to the console and at most one more
to a file, whatever was there before, so that handlers never pile up.
-/
set_option autoImplicit false

namespace PlainJson

section
variable {α : Type} [DecidableEq α] [Inhabited α]

/-- The argument if one is given that is not empty, and else the setting. What is empty is the
default, both of texts and of paths. -/
def preferred (argument setting : Option α) : Option α :=
  match argument with
  | none => setting
  | some t => if t = default then setting else some t

theorem preferred_eq (argument setting : Option α) :
    preferred argument setting = (nonempty argument).or setting := by
  cases argument with
  | none => rfl
  | some t => by_cases ht : t = default <;> simp [preferred, nonempty, Option.filter, ht]

theorem nonempty_eq_some {s : Option α} {t : α} :
    nonempty s = some t ↔ s = some t ∧ t ≠ default := by
  simp [nonempty, Option.filter_eq_some_iff]

theorem nonempty_or {argument setting : Option α} {t : α} :
    (nonempty argument).or (nonempty setting) = some t ↔
      preferred argument setting = some t ∧ t ≠ default := by
  rw [preferred_eq]
  cases h : nonempty argument with
  | none => simp [nonempty_eq_some]
  | some u =>
    have hu := (nonempty_eq_some.1 h).2
    simp only [Option.some_or, Option.some.injEq]
    exact ⟨fun he => ⟨he, he ▸ hu⟩, And.left⟩

end

theorem resolve_level (c : Choices) (s : Settings) :
    preferred c.level (some s.severity.name) = some (c.resolve s).level := by
  rw [preferred_eq]
  cases h : nonempty c.level <;> simp [Choices.resolve, h]

theorem resolve_filePath {c : Choices} {s : Settings} {path : PathText} :
    (c.resolve s).filePath = some path ↔
      preferred c.filePath s.filePath = some path ∧ path ≠ [] :=
  nonempty_or

def Handler.isConsole : Handler → Bool
  | .rich | .console _ => true
  | .file _ _ => false

theorem Resolved.isConsole_main (r : Resolved) : r.main.isConsole = true := by
  unfold main
  split <;> rfl

theorem Resolved.main_eq_rich {r : Resolved} : r.main = .rich ↔ r.useRich = true := by
  unfold main
  split <;> simp [*]

/-- A layout that would be refused on the console is not looked at where the console is rich. -/
theorem Resolved.useRich_of_refused {r : Resolved} {h : Handler} {layout : String}
    (hm : r.mainHandler = .ok h) (hf : r.layout = some layout)
    (hb : Log.Layout.accepts layout = false) : r.useRich = true := by
  unfold mainHandler at hm
  split at hm
  · assumption
  · rw [hf] at hm
    simp [checkLayout, hb, Except.map] at hm

/-- What a failure leaves of the root: all of it if the level is unknown, and otherwise the new
level, with the handler that was made before the failure, if there is one. -/
def ConfigError.Leaves (r : Resolved) (u v : Setup) : ConfigError → Prop
  | .unknownLevel _ => v.level = u.level ∧ v.handlers = u.handlers
  | .invalidLayout _ =>
    Log.levelOfName? r.upperLevel = some v.level ∧ v.handlers = if r.useRich then [.rich] else []
  | .badPath _ => Log.levelOfName? r.upperLevel = some v.level ∧ v.handlers = [r.main]

section Ends

variable {files : FileTree} {r : Resolved} {u v : Setup}

theorem Attaches.few {x : Except ConfigError Unit} {added : List Handler}
    (h : Attaches files r x added) : added = [] ∨ ∃ path layout, added = [.file path layout] := by
  cases h with
  | opened => exact .inr ⟨_, _, rfl⟩
  | noPath | unusable | badPath | badLayout => exact .inl rfl

theorem Attaches.added_iff {added : List Handler} (h : Attaches files r (.ok ()) added) :
    added ≠ [] ↔ ∃ path, r.filePath = some path ∧ files.opening path = .ok () := by
  cases h with
  | noPath hp => simp [hp]
  | unusable hp ho => simp [hp, ho]
  | opened hp ho => simp [hp, FileTree.opening_of_opened ho]

theorem Installs.failed {e : ConfigError} (h : Installs files r u (.error e) v) :
    v.settings = u.settings ∧ v.configured = u.configured ∧ v.started = u.started ∧
      e.Leaves r u v := by
  cases h with
  | unknownLevel => exact ⟨rfl, rfl, rfl, rfl, rfl⟩
  | badLayout hl hr => exact ⟨rfl, rfl, rfl, hl, by simp [hr]⟩
  | stopped hl hm ha =>
    refine ⟨rfl, rfl, rfl, ?_⟩
    cases ha with
    | badPath => exact ⟨hl, rfl⟩
    | badLayout _ _ hf hb =>
      -- A console that is not rich would have refused the layout before the file was opened.
      have hr := Resolved.useRich_of_refused hm hf hb
      exact ⟨hl, by rw [Resolved.main_eq_rich.2 hr, if_pos hr]⟩

end Ends

/-- No handler, or one on the console, or one on the console and one on a file behind it. -/
inductive Few : List Handler → Prop where
  | none : Few []
  | console {main : Handler} (hm : main.isConsole = true) : Few [main]
  | file {main : Handler} {path : FilePath} {layout : String} (hm : main.isConsole = true) :
      Few [main, .file path layout]

theorem Resolved.few_main (r : Resolved) {files : FileTree} {x : Except ConfigError Unit}
    {added : List Handler} (h : Attaches files r x added) : Few (r.main :: added) := by
  obtain rfl | ⟨path, layout, rfl⟩ := h.few
  · exact .console r.isConsole_main
  · exact .file r.isConsole_main

theorem Installs.few {files : FileTree} {r : Resolved} {u v : Setup} {x : Except ConfigError Unit}
    (h : Installs files r u x v) (hu : Few u.handlers) : Few v.handlers := by
  cases h with
  | unknownLevel => exact hu
  | badLayout => exact .none
  | stopped _ _ ha | done _ _ ha => exact r.few_main ha

namespace Session

variable {s t : Session} {c : Command}

theorem setsUp_of_error {e : ConfigError} (h : (s.step c).1 = .error (.config e)) : s.SetsUp c :=
  Classical.not_not.1 fun hn => (step_keeps hn).2 e h

/-- Where configuring fails, whether it was asked for or came about by asking for a logger, the
settings stay, and so does the mark that logging is configured. The start of the session stays if
logging was configured before. The root stays as it is if the level is unknown; otherwise it has the
new level, and of the handlers only the one that was made before the failure. -/
theorem failed_configuring (s : Session) (c : Command) (e : ConfigError)
    (h : (s.step c).1 = .error (.config e)) :
    (s.step c).2.settings = s.settings ∧ (s.step c).2.configured = s.configured ∧
      (s.step c).2.started = (if s.configured then s.started else s.clock) ∧
      e.Leaves (c.choices.resolve s.settings) s.setup (s.step c).2.setup := by
  obtain ⟨x, hi, hx⟩ := step_installs (setsUp_of_error h)
  obtain rfl := (hx e).1 h
  obtain ⟨hs, hc, ht, hroot⟩ := hi.failed
  rw [noteStart_setup] at hs hc ht hroot
  exact ⟨hs, hc, ht, hroot⟩

/-- Logging came to be configured with a rich console, and the layout was refused for the file. -/
theorem failed_configuring_on_the_way :
    let s := (fresh 0).after
      [.set "log_format_string" (.text "plain"), .set "log_file_path" (.text "a.log")]
    let x := s.step (.getLogger "app")
    x.1 = .error (.config (.invalidLayout "plain")) ∧
      x.2.settings = s.settings ∧ x.2.configured = false ∧ x.2.level = 20 ∧
        x.2.handlers = [.rich] := by
  have hx : (((fresh 0).after
      [.set "log_format_string" (.text "plain"), .set "log_file_path" (.text "a.log")]).step
      (.getLogger "app")).1 = .error (.config (.invalidLayout "plain")) := rfl
  obtain ⟨hs, hc, -, hl, hh⟩ := failed_configuring _ _ _ hx
  exact ⟨hx, hs, hc, (Option.some.inj hl).symm, hh⟩

/-- A layout that is refused costs a configured session its level and its handlers, and a session
that is not configured has started anew, even if the level is unknown. -/
theorem configuring_not_atomic :
    (let s := (fresh 0).after [.configure ⟨some "INFO", some false, none, none, true⟩]
      let x := s.step (.configure ⟨some "DEBUG", some false, some "plain", none, true⟩)
      x.1 = .error (.config (.invalidLayout "plain")) ∧
        s.level = 20 ∧ s.handlers = [.console Log.Layout.console] ∧
        x.2.level = 10 ∧ x.2.handlers = [] ∧ x.2.setup ≠ s.setup) ∧
      let s := (fresh 0).after [.clock 5]
      let x := s.step (.configure ⟨some "loud", none, none, none, false⟩)
      x.1 = .error (.config (.unknownLevel "LOUD")) ∧ s.started = 0 ∧ x.2.started = 5 := by
  refine ⟨⟨rfl, rfl, rfl, rfl, rfl, fun h => ?_⟩, rfl, rfl, rfl⟩
  exact absurd (level_of_setup h) (by decide)

/-- What a session is like after it was configured: it is marked so, the root has the level of that
name, one handler writes to the console, and one more to the log file if one was asked for and could
be opened. -/
structure ConfiguredBy (s : Session) (c : Choices) (t : Session) : Prop where
  configured : t.configured = true
  level : ∃ name, preferred c.level (some s.settings.severity.name) = some name ∧
    Log.levelOfName? (String.ofList (Text.upper name.toList)) = some t.level
  handlers : ∃ main added, t.handlers = main :: added ∧ main.isConsole = true ∧
    (main = .rich ↔ c.useRich.getD s.settings.useRich = true) ∧
    (added = [] ∨ ∃ path layout, added = [.file path layout]) ∧
    (added ≠ [] ↔ ∃ path, (preferred c.filePath s.settings.filePath = some path ∧ path ≠ []) ∧
      s.files.opening path = .ok ())

theorem configuredBy_of_installs {ch : Choices} {u : Setup}
    (h : Installs s.files (ch.resolve s.settings) u (.ok ()) t.setup) : s.ConfiguredBy ch t := by
  generalize ht : t.setup = v at h
  cases h with
  | done hl hm ha =>
    refine ⟨congrArg Setup.configured ht, ⟨_, resolve_level ch s.settings, ?_⟩, ?_⟩
    · exact hl.trans (congrArg (some ∘ Setup.level) ht).symm
    · refine ⟨_, _, congrArg Setup.handlers ht, Resolved.isConsole_main _, Resolved.main_eq_rich,
        ha.few, ?_⟩
      simpa only [resolve_filePath] using ha.added_iff

theorem step_few (h : Few s.handlers) (c : Command) : Few (s.step c).2.handlers := by
  by_cases hc : s.SetsUp c
  · obtain ⟨x, hi, -⟩ := step_installs hc
    refine hi.few ?_
    rw [noteStart_setup]
    exact h
  · have hh : (s.step c).2.handlers = s.handlers := congrArg Setup.handlers (step_keeps hc).1
    rwa [hh]

/-- Handlers do not pile up. A session that begins with none has none, or one on the console, or one
on the console and one on a file behind it, after any commands. A command that sets up logging and
does not fail in this leaves the session configured by its choices, whatever it was like before; and
a command that does not set up logging leaves the root and the mark of being configured alone. -/
theorem handlers_stay_few :
    (∀ (s : Session) (cs : List Command), s.handlers = [] → Few (s.after cs).handlers) ∧
      (∀ (s : Session) (c : Command), s.SetsUp c → (∀ e, (s.step c).1 ≠ .error (.config e)) →
        s.ConfiguredBy c.choices (s.step c).2) ∧
      ∀ (s : Session) (c : Command), ¬s.SetsUp c → (s.step c).2.level = s.level ∧
        (s.step c).2.handlers = s.handlers ∧ (s.step c).2.configured = s.configured := by
  refine ⟨fun s cs hs => ?_, fun s c hc hn => ?_, fun s c hc => ?_⟩
  · exact after_induction (P := fun t => Few t.handlers) (hs ▸ .none) (fun t c h => step_few h c) cs
  · obtain ⟨x, hi, hx⟩ := step_installs hc
    obtain e | ⟨⟨⟩⟩ := x
    · exact absurd ((hx e).2 rfl) (hn e)
    · exact configuredBy_of_installs hi
  · have hu := (step_keeps hc).1
    exact ⟨congrArg Setup.level hu, congrArg Setup.handlers hu, congrArg Setup.configured hu⟩

/-- Asking for a logger, configuring anew with a log file, and configuring once more without force,
which is passed over. -/
theorem handlers_stay_few_twice :
    let s := (fresh 0).after [.getLogger "app"]
    let c := Command.configure ⟨some "warn", some false, none, some "a.log", true⟩
    let d := Command.configure ⟨some "ERROR", none, none, none, false⟩
    ((fresh 0).handlers = [] ∧ Few s.handlers) ∧
      (s.SetsUp c ∧ (s.step c).1 = .ok .none ∧ s.ConfiguredBy c.choices (s.step c).2) ∧
      ¬s.SetsUp d ∧ (s.step d).2.handlers = [.rich] := by
  obtain ⟨hfew, hdone, hkept⟩ := handlers_stay_few
  have hd : ¬((fresh 0).after [.getLogger "app"]).SetsUp
      (.configure ⟨some "ERROR", none, none, none, false⟩) := by
    have hs : ((fresh 0).after [.getLogger "app"]).configured = true := rfl
    simp only [SetsUp, hs, Bool.true_eq_false, Bool.false_eq_true, or_self, not_false_eq_true]
  have hx : (((fresh 0).after [.getLogger "app"]).step
      (.configure ⟨some "warn", some false, none, some "a.log", true⟩)).1 = .ok .none := rfl
  have hc : ((fresh 0).after [.getLogger "app"]).SetsUp
      (.configure ⟨some "warn", some false, none, some "a.log", true⟩) := .inr rfl
  have hb := hdone _ _ hc fun e he => by
    rw [hx] at he
    cases he
  exact ⟨⟨rfl, hfew _ _ rfl⟩, ⟨hc, hx, hb⟩, hd, (hkept _ _ hd).2.1⟩

end Session

end PlainJson
