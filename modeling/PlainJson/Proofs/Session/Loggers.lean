import PlainJson.Proofs.Session.Journal

/-!
The loggers that a session hands out. Whoever asks for one has logging configured, and it stays so.
From then on a logger that counts adds each record that the root lets through to the counts of its
own name; but two loggers, under three names, only pass records on and cannot report performance.
-/
set_option autoImplicit false

namespace PlainJson

theorem Installs.configured_of_ok {files : FileTree} {r : Resolved} {u v : Setup}
    (h : Installs files r u (.ok ()) v) : v.configured = true := by
  cases h
  rfl

theorem Installs.keeps_configured {files : FileTree} {r : Resolved} {u v : Setup}
    {x : Except ConfigError Unit} (h : Installs files r u x v) (hu : u.configured = true) :
    v.configured = true := by
  cases h with
  | unknownLevel | badLayout | stopped => exact hu
  | done => rfl

theorem Log.isPlain_iff {name : String} :
    isPlain name = true ↔ name ∈ ["", "root", "pcjson._core.logging"] := by
  by_cases h : name = "" <;> simp [isPlain, canonicalName, rootName, configLogger, h]

theorem Log.canonicalName_of_not_plain {name : String} (h : isPlain name = false) :
    canonicalName name = name := by
  have hn : name ≠ "" := by
    rintro rfl
    cases h
  rw [canonicalName, if_neg hn]

namespace Session

variable {s : Session} {name : String}

theorem configured_step (h : s.configured = true) (c : Command) :
    (s.step c).2.configured = true := by
  by_cases hc : s.SetsUp c
  · obtain ⟨_, hi, -⟩ := step_installs hc
    exact hi.keeps_configured (by rw [noteStart_setup]; exact h)
  · exact (congrArg Setup.configured (step_keeps hc).1).trans h

theorem configured_after (h : s.configured = true) (cs : List Command) :
    (s.after cs).configured = true :=
  after_induction (P := fun t => t.configured = true) h (fun _ c ht => configured_step ht c) cs

theorem configured_of_ensured {t : Session} (h : s.ensureConfigured = (.ok (), t)) :
    t.configured = true := by
  by_cases hs : s.configured = true
  · rw [ensureConfigured, if_pos hs] at h
    cases h
    exact hs
  · have hs := eq_false_of_ne_true hs
    have hi := configure_installs (c := .none) (.inl hs)
    rw [← ensureConfigured_of_not hs, h] at hi
    exact hi.configured_of_ok

/-- Asking for a logger that is handed out leaves a configured session. -/
theorem getLogger_answer {r : Reply} (h : (s.step (.getLogger name)).1 = .ok r) :
    r = .logger (!Log.isPlain name) (Log.canonicalName name) ∧
      (s.step (.getLogger name)).2.configured = true := by
  rw [step_eq, perform_asking rfl, whenConfigured] at *
  cases hx : s.silenced.ensureConfigured with
  | mk answer t =>
    rw [hx] at h
    obtain e | ⟨⟨⟩⟩ := answer
    · cases h
    · cases h
      exact ⟨rfl, configured_of_ensured hx⟩

theorem step_configured {c : Command} {next : Session → Step} (h : s.configured = true)
    (hc : c.asking? = some next) : s.step c = next s.silenced := by
  rw [step_eq, perform_asking hc]
  exact whenConfigured_of_configured (s := s.silenced) h next

/-- The session `t` is `s` with one more record counted, which a logger of this name issued at this
level, if the root let it through. -/
structure Counted (s : Session) (name : String) (level : Int) (t : Session) : Prop where
  count : ∀ l, t.tally.get name l =
    s.tally.get name l + if s.enabled level = true ∧ level = l.rank then 1 else 0
  entry : s.enabled level = true → (t.tally.counts? name).isSome = true
  others : ∀ other, other ≠ name → t.tally.counts? other = s.tally.counts? other

theorem issue_counted (h : Log.isPlain name = false) (s : Session) (level : Int)
    (message : String) : s.Counted name level (s.silenced.issue name level message) := by
  have ht : (s.silenced.issue name level message).tally =
      s.tally.noteAttempt (s.attempt name level) := issue_tally s.silenced name level message
  have hp : (s.attempt name level).counted = s.enabled level := Log.Attempt.counted_of_not_plain h
  refine ⟨fun l => ?_, fun he => ?_, fun other ho => ?_⟩
  · rw [ht, Log.Tally.get_noteAttempt, hp]
    simp [Log.Attempt.isAt, attempt]
  · rw [ht, Log.Tally.isSome_counts?, Log.Tally.noteAttempt, hp, if_pos he, Log.Tally.names_note]
    by_cases hm : name ∈ s.tally.names <;> simp [attempt, hm]
  · have hl : ∀ a ∈ [s.attempt name level], a.logger ≠ other := by simpa [attempt] using ho.symm
    rw [ht]
    exact Log.Tally.counts?_noteAll_of_ne hl s.tally

/-- A logger of this name counts: what it issues is counted, and it can report performance. -/
structure Counting (s : Session) (name : String) : Prop where
  log : ∀ level message, (s.step (.log name level message)).1 = .ok .none ∧
    s.Counted name level (s.step (.log name level message)).2
  perf : ∀ operation duration level metrics,
    (s.step (.perf name operation duration level metrics)).1 = .ok .none ∧
      s.Counted name level (s.step (.perf name operation duration level metrics)).2

/-- A logger of this name only passes records on, and cannot report performance. -/
structure PassingOn (s : Session) (name : String) : Prop where
  log : ∀ level message, (s.step (.log name level message)).1 = .ok .none ∧
    (s.step (.log name level message)).2.tally = s.tally
  perf : ∀ operation duration level metrics,
    (s.step (.perf name operation duration level metrics)).1 = .error .noPerformance ∧
      (s.step (.perf name operation duration level metrics)).2.tally = s.tally

theorem counting (hs : s.configured = true) (h : Log.isPlain name = false) : s.Counting name := by
  refine ⟨fun level message => ?_, fun operation duration level metrics => ?_⟩
  · rw [step_configured hs rfl]
    exact ⟨rfl, issue_counted h s level message⟩
  · rw [step_configured hs rfl, h]
    exact ⟨rfl, issue_counted h s level _⟩

theorem passingOn (hs : s.configured = true) (h : Log.isPlain name = true) : s.PassingOn name := by
  refine ⟨fun level message => ?_, fun operation duration level metrics => ?_⟩
  · rw [step_configured hs rfl]
    exact ⟨rfl, (issue_tally s.silenced _ _ _).trans (Log.Tally.noteAttempt_of_plain h _)⟩
  · rw [step_configured hs rfl, h]
    exact ⟨rfl, rfl⟩

/-- Which loggers count. A logger that is handed out counts unless it was asked for by one of three
names, those of the root and that of the logger which configuring itself uses; and whatever is done
afterwards, it goes on as it began. -/
theorem logger_counts_iff (s : Session) (name : String) (r : Reply)
    (h : (s.step (.getLogger name)).1 = .ok r) :
    ∃ counting, r = .logger counting (Log.canonicalName name) ∧
      (counting = true ↔ name ∉ ["", "root", "pcjson._core.logging"]) ∧
      ∀ cs, let t := (s.step (.getLogger name)).2.after cs
        (counting = true → Log.canonicalName name = name ∧ t.Counting name) ∧
          (counting = false → t.PassingOn name) := by
  obtain ⟨rfl, hs⟩ := getLogger_answer h
  refine ⟨_, rfl, ?_, fun cs => ⟨fun hc => ?_, fun hc => ?_⟩⟩
  · rw [← Log.isPlain_iff, Bool.not_eq_true', Bool.not_eq_true]
  · have hp : Log.isPlain name = false := by simpa using hc
    exact ⟨Log.canonicalName_of_not_plain hp, counting (configured_after hs cs) hp⟩
  · exact passingOn (configured_after hs cs) (by simpa using hc)

/-- The logger is handed out before the root is made strict, and counts an error afterwards. -/
theorem logger_counts_iff_app :
    let x := (fresh 0).step (.getLogger "app")
    let t := x.2.after [.configure ⟨some "ERROR", none, none, none, true⟩]
    x.1 = .ok (.logger true "app") ∧ t.Counting "app" ∧
      (t.step (.log "app" 40 "broken")).2.tally.get "app" .error = 1 := by
  have hx : ((fresh 0).step (.getLogger "app")).1 = .ok (.logger true "app") := rfl
  obtain ⟨_, ⟨⟩, -, hc⟩ := logger_counts_iff (fresh 0) "app" _ hx
  have ht := ((hc [.configure ⟨some "ERROR", none, none, none, true⟩]).1 rfl).2
  exact ⟨hx, ht, ((ht.log 40 "broken").2.count .error).trans (by decide)⟩

/-- The logger which configuring itself uses is handed out like any other, but it cannot report
performance, and an error that the root lets through it is not counted. -/
theorem handed_out_without_counting :
    let x := (fresh 0).step (.getLogger "pcjson._core.logging")
    x.1 = .ok (.logger false "pcjson._core.logging") ∧
      (x.2.step (.perf "pcjson._core.logging" "load" 0 20 [])).1 = .error .noPerformance ∧
      x.2.enabled 40 = true ∧
      (x.2.step (.log "pcjson._core.logging" 40 "broken")).2.tally = [] :=
  ⟨rfl, rfl, rfl, rfl⟩

end Session

end PlainJson
