import PlainJson.Proofs.Session.Installing

/-!
What a step does to the setup. Logging is set up by configuring, unless that is passed over, and by
whatever asks for a logger before logging is configured; the settings are assigned; and nothing else
changes. What holds of a session at the start and is kept by every step holds after any commands.
-/
set_option autoImplicit false

namespace PlainJson

/-- The choices with which a command sets up logging. -/
def Command.choices : Command → Choices
  | .configure c => c
  | _ => .none

/-- What a command does with a session that is configured, if it asks for a logger. -/
def Command.asking? : Command → Option (Session → Session.Step)
  | .getLogger name =>
    some fun t => (.ok (.logger (!Log.isPlain name) (Log.canonicalName name)), t)
  | .log name level message => some fun t => (.ok .none, t.issue name level message)
  | .perf name operation duration level metrics =>
    some fun t =>
      if Log.isPlain name then (.error .noPerformance, t)
      else (.ok .none, t.issue name level (Session.performanceMessage operation duration metrics))
  | .summary => some fun t => (.ok .none, t.report)
  | _ => none

namespace Session

/-- The command sets up logging: it configures and is not passed over, or it asks for a logger
while nothing is configured. -/
def SetsUp (s : Session) : Command → Prop
  | .configure c => s.configured = false ∨ c.force = true
  | c => c.asking?.isSome = true ∧ s.configured = false

/-- The settings after a command. -/
def assigned (s : Session) : Command → Settings
  | .set field x => (s.settings.assign field x).toOption.getD s.settings
  | _ => s.settings

def after (s : Session) (cs : List Command) : Session := cs.foldl (fun t c => (t.step c).2) s

variable {s : Session} {c : Command} {next : Session → Step}

/-- A summary, too, asks for a logger and goes on from there. -/
theorem perform_summary (s : Session) :
    s.perform .summary = s.whenConfigured fun t => (.ok .none, t.report) := by
  simp only [perform, summary, whenConfigured]
  generalize s.ensureConfigured = x
  obtain ⟨_ | _, t⟩ := x <;> rfl

theorem perform_asking (h : c.asking? = some next) (s : Session) :
    s.perform c = s.whenConfigured next := by
  cases c with
  | getLogger | log | perf =>
    cases h
    rfl
  | summary =>
    cases h
    exact perform_summary s
  | set | configure | clock | touch | read | readOr => cases h

/-- Once logging is configured, asking for a logger does not set it up, nor fail to. -/
theorem asking_leaves (h : c.asking? = some next) (t : Session) :
    (next t).2.setup = t.setup ∧ ∀ e, (next t).1 ≠ .error (.config e) := by
  cases c with
  | getLogger =>
    cases h
    exact ⟨rfl, nofun⟩
  | log =>
    cases h
    exact ⟨issue_setup t _ _ _, nofun⟩
  | perf =>
    cases h
    dsimp only
    split
    · exact ⟨rfl, nofun⟩
    · exact ⟨issue_setup t _ _ _, nofun⟩
  | summary =>
    cases h
    exact ⟨report_setup t, nofun⟩
  | set | configure | clock | touch | read | readOr => cases h

theorem whenConfigured_of_configured (h : s.configured = true) (next : Session → Step) :
    s.whenConfigured next = next s := by
  simp [whenConfigured, ensureConfigured, h]

theorem ensureConfigured_of_not (h : s.configured = false) :
    s.ensureConfigured = s.configure .none := by
  simp [ensureConfigured, h]

theorem asking_installs (h : c.asking? = some next) (hs : s.configured = false) :
    ∃ x, Installs s.files (Choices.none.resolve s.settings) s.noteStart.setup x
        (s.perform c).2.setup ∧
      ∀ e, (s.perform c).1 = .error (.config e) ↔ x = .error e := by
  have hi := configure_installs (c := .none) (.inl hs)
  rw [perform_asking h, whenConfigured, ensureConfigured_of_not hs]
  generalize s.configure .none = x at hi
  obtain ⟨e | _, t⟩ := x
  · exact ⟨_, hi, fun e' => by simp⟩
  · obtain ⟨hu, hn⟩ := asking_leaves h t
    exact ⟨_, hu.symm ▸ hi, fun e => iff_of_false (hn e) (by simp)⟩

theorem asking_keeps (h : c.asking? = some next) (hs : s.configured = true) :
    (s.perform c).2.setup = s.setup ∧ ∀ e, (s.perform c).1 ≠ .error (.config e) := by
  rw [perform_asking h, whenConfigured_of_configured hs]
  exact asking_leaves h s

theorem ofConfig_eq_error {x : Except ConfigError Unit × Session} {e : ConfigError} :
    (ofConfig x).1 = .error (.config e) ↔ x.1 = .error e := by
  obtain ⟨_ | _, t⟩ := x <;> simp [ofConfig]

theorem ofRead_ne_config (x : Except ReadError Value × Session) (e : ConfigError) :
    (ofRead x).1 ≠ .error (.config e) := by
  obtain ⟨_ | _, _⟩ := x <;> exact nofun

/-- The output of a step is its own. -/
def silenced (s : Session) : Session := { s with output := "" }

theorem step_eq (s : Session) (c : Command) : s.step c = s.silenced.perform c := rfl

/-- A step that sets up logging ends as configuring does, and leaves the setup that it leaves. -/
theorem step_installs (h : s.SetsUp c) :
    ∃ x, Installs s.files (c.choices.resolve s.settings) s.noteStart.setup x (s.step c).2.setup ∧
      ∀ e, (s.step c).1 = .error (.config e) ↔ x = .error e := by
  have hstart : s.silenced.noteStart.setup = s.noteStart.setup := by
    rw [noteStart_setup, noteStart_setup]
    rfl
  rw [step_eq, ← hstart]
  cases c with
  | configure ch =>
    exact ⟨_, configure_installs (s := s.silenced) h, fun e => ofConfig_eq_error⟩
  | getLogger | log | perf | summary => exact asking_installs (s := s.silenced) rfl h.2
  | set | clock | touch | read | readOr => exact absurd h.1 (by simp [Command.asking?])

/-- Any other step leaves the setup alone, but for the settings when these are assigned. -/
theorem step_keeps (h : ¬s.SetsUp c) :
    (s.step c).2.setup = { s.setup with settings := s.assigned c } ∧
      ∀ e, (s.step c).1 ≠ .error (.config e) := by
  rw [step_eq]
  cases c with
  | set field x =>
    simp only [perform, silenced, assigned]
    split
    · simp [*, setup, Except.toOption]
    · simp [*, setup, Except.toOption]
  | configure ch =>
    obtain ⟨hs, hf⟩ := not_or.1 h
    obtain ⟨hx, hu⟩ := configure_skips (s := s.silenced) (eq_true_of_ne_false hs)
      (eq_false_of_ne_true hf)
    refine ⟨hu, fun e he => ?_⟩
    rw [ofConfig_eq_error.1 he] at hx
    cases hx
  | getLogger | log | perf | summary =>
    have hs : s.configured = true := eq_true_of_ne_false fun hs => h ⟨rfl, hs⟩
    exact asking_keeps (s := s.silenced) rfl hs
  | clock => exact ⟨rfl, fun e he => by cases he⟩
  | touch path =>
    simp only [perform]
    split <;> exact ⟨rfl, fun e he => by cases he⟩
  | read given => exact ⟨read_setup s.silenced given, ofRead_ne_config _⟩
  | readOr given default => exact ⟨readOr_setup s.silenced given default, ofRead_ne_config _⟩

@[simp] theorem after_nil (s : Session) : s.after [] = s := rfl

@[simp] theorem after_cons (s : Session) (c : Command) (cs : List Command) :
    s.after (c :: cs) = (s.step c).2.after cs := rfl

/-- The last step of a run is a step of the session after the commands before it. -/
theorem run_concat (s : Session) (cs : List Command) (c : Command) :
    s.run (cs ++ [c]) = s.run cs ++ [(s.after cs).step c] := by
  induction cs generalizing s with
  | nil => rfl
  | cons d cs ih => simp [run, ih]

theorem after_induction {P : Session → Prop} (hs : P s) (hstep : ∀ t c, P t → P (t.step c).2)
    (cs : List Command) : P (s.after cs) := by
  induction cs generalizing s with
  | nil => exact hs
  | cons c cs ih => exact ih (hstep s c hs)

end Session

end PlainJson
