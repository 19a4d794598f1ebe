import PlainJson.Proofs.Session.Setup

/-!
What configuring can come to. `Installs` has one case for each way in which it ends, with all that
was found out before the end and the setup that is left; whatever is to be known about configuring
follows from these cases.
-/
set_option autoImplicit false

namespace PlainJson

/-- Whether the directories above a file can be made and the file be opened. -/
def FileTree.opening (files : FileTree) (path : PathText) : Except OpenError Unit :=
  (files.openGiven path).1.map fun _ => ()

namespace FileTree
variable {files : FileTree} {path : PathText}

theorem opening_of_opened {place : FilePath} (h : (files.openGiven path).1 = .ok place) :
    files.opening path = .ok () := by
  rw [opening, h]
  rfl

theorem opening_of_failed {e : OpenError} (h : (files.openGiven path).1 = .error e) :
    files.opening path = .error e := by
  rw [opening, h]
  rfl

end FileTree

theorem checkLayout_eq_ok {asked : Option String} {standard layout : String}
    (h : checkLayout asked standard = .ok layout) : layout = asked.getD standard := by
  cases asked with
  | none =>
    cases h
    rfl
  | some f =>
    simp only [checkLayout] at h
    split at h
    · cases h
      rfl
    · cases h

theorem checkLayout_eq_error {asked : Option String} {standard : String} {e : ConfigError}
    (h : checkLayout asked standard = .error e) :
    ∃ f, asked = some f ∧ Log.Layout.accepts f = false ∧ e = .invalidLayout f := by
  cases asked with
  | none => cases h
  | some f =>
    simp only [checkLayout] at h
    split at h
    · cases h
    · rename_i hb
      cases h
      exact ⟨f, rfl, by simpa using hb, rfl⟩

namespace Resolved

/-- The handler on the console, if there is one. -/
def main (r : Resolved) : Handler :=
  if r.useRich then .rich else .console (r.layout.getD Log.Layout.console)

variable {r : Resolved}

theorem mainHandler_eq_ok {h : Handler} (hm : r.mainHandler = .ok h) : h = r.main := by
  unfold mainHandler at hm
  unfold main
  split at hm
  · rw [if_pos ‹_›]
    cases hm
    rfl
  · rw [if_neg ‹_›]
    cases hc : checkLayout r.layout Log.Layout.console with
    | error e =>
      rw [hc] at hm
      cases hm
    | ok layout =>
      rw [hc] at hm
      cases hm
      rw [checkLayout_eq_ok hc]

theorem mainHandler_eq_error {e : ConfigError} (hm : r.mainHandler = .error e) :
    r.useRich = false ∧
      ∃ f, r.layout = some f ∧ Log.Layout.accepts f = false ∧ e = .invalidLayout f := by
  unfold mainHandler at hm
  split at hm
  · cases hm
  · rename_i hr
    cases hc : checkLayout r.layout Log.Layout.console with
    | error e' =>
      rw [hc] at hm
      cases hm
      exact ⟨by simpa using hr, checkLayout_eq_error hc⟩
    | ok layout =>
      rw [hc] at hm
      cases hm

end Resolved

/-- How the part that sees to the log file ends, and the handlers that it adds. -/
inductive Attaches (files : FileTree) (r : Resolved) :
    Except ConfigError Unit → List Handler → Prop where
  | noPath (hp : r.filePath = none) : Attaches files r (.ok ()) []
  | unusable {path : PathText} {e : OpenError} (hp : r.filePath = some path)
      (ho : files.opening path = .error e) (he : e.isSystem = true) : Attaches files r (.ok ()) []
  | badPath {path : PathText} {e : OpenError} (hp : r.filePath = some path)
      (ho : files.opening path = .error e) (he : e.isSystem = false) :
      Attaches files r (.error (.badPath e)) []
  | badLayout {path : PathText} {layout : String} (hp : r.filePath = some path)
      (ho : files.opening path = .ok ()) (hf : r.layout = some layout)
      (hb : Log.Layout.accepts layout = false) :
      Attaches files r (.error (.invalidLayout layout)) []
  | opened {path : PathText} {place : FilePath} {layout : String} (hp : r.filePath = some path)
      (ho : (files.openGiven path).1 = .ok place)
      (hf : checkLayout r.layout Log.Layout.file = .ok layout) :
      Attaches files r (.ok ()) [.file place.place layout]

/-- How configuring ends, and the setup it leaves. -/
inductive Installs (files : FileTree) (r : Resolved) (u : Setup) :
    Except ConfigError Unit → Setup → Prop where
  | unknownLevel (hl : Log.levelOfName? r.upperLevel = none) :
      Installs files r u (.error (.unknownLevel r.upperLevel)) u
  | badLayout {n : Int} {layout : String} (hl : Log.levelOfName? r.upperLevel = some n)
      (hr : r.useRich = false) (hf : r.layout = some layout)
      (hb : Log.Layout.accepts layout = false) :
      Installs files r u (.error (.invalidLayout layout)) { u with level := n, handlers := [] }
  | stopped {n : Int} {e : ConfigError} {added : List Handler}
      (hl : Log.levelOfName? r.upperLevel = some n) (hm : r.mainHandler = .ok r.main)
      (ha : Attaches files r (.error e) added) :
      Installs files r u (.error e) { u with level := n, handlers := r.main :: added }
  | done {n : Int} {added : List Handler} (hl : Log.levelOfName? r.upperLevel = some n)
      (hm : r.mainHandler = .ok r.main) (ha : Attaches files r (.ok ()) added) :
      Installs files r u (.ok ())
        { u with configured := true, level := n, handlers := r.main :: added }

namespace Session

theorem reportUnusable_setup (s : Session) (path : PathText) (e : OpenError) :
    (s.reportUnusable path e).2.setup = s.setup := by
  unfold reportUnusable
  split
  · exact issueAt_setup s _ _ _
  · rfl

theorem addFile_attaches {s : Session} {files : FileTree} {r : Resolved} {path : PathText}
    {place : FilePath} (hp : r.filePath = some path) (ho : (files.openGiven path).1 = .ok place) :
    ∃ added, Attaches files r (s.addFile r path place).1 added ∧
      (s.addFile r path place).2.setup = { s.setup with handlers := s.handlers ++ added } := by
  unfold addFile
  cases hf : checkLayout r.layout Log.Layout.file with
  | error e =>
    obtain ⟨f, ha, hb, rfl⟩ := checkLayout_eq_error hf
    exact ⟨[], .badLayout hp (FileTree.opening_of_opened ho) ha hb, by simp [setup]⟩
  | ok layout => exact ⟨_, .opened hp ho hf, issueAt_setup _ _ _ _⟩

theorem reportUnusable_attaches {s : Session} {files : FileTree} {r : Resolved} {path : PathText}
    {e : OpenError} (hp : r.filePath = some path) (ho : files.opening path = .error e) :
    Attaches files r (s.reportUnusable path e).1 [] := by
  unfold reportUnusable
  split
  · exact .unusable hp ho ‹_›
  · exact .badPath hp ho (eq_false_of_ne_true ‹_›)

theorem attachFile_attaches (s : Session) (r : Resolved) :
    ∃ added, Attaches s.files r (s.attachFile r).1 added ∧
      (s.attachFile r).2.setup = { s.setup with handlers := s.handlers ++ added } := by
  unfold attachFile
  cases hp : r.filePath with
  | none => exact ⟨[], .noPath hp, by simp [setup]⟩
  | some path =>
    dsimp only
    generalize h : s.files.openGiven path = x
    obtain ⟨e | place, files⟩ := x
    · have hopen := FileTree.opening_of_failed (congrArg Prod.fst h)
      exact ⟨[], reportUnusable_attaches hp hopen,
        (reportUnusable_setup _ _ _).trans (by simp [setup])⟩
    · exact addFile_attaches (s := { s with files }) hp (congrArg Prod.fst h)

theorem install_installs (s : Session) (r : Resolved) :
    Installs s.files r s.setup (s.install r).1 (s.install r).2.setup := by
  unfold install
  cases hl : Log.levelOfName? r.upperLevel with
  | none => exact .unknownLevel hl
  | some n =>
    dsimp only
    cases hm : r.mainHandler with
    | error e =>
      obtain ⟨hr, f, hf, hb, rfl⟩ := Resolved.mainHandler_eq_error hm
      exact .badLayout hl hr hf hb
    | ok h =>
      obtain rfl := Resolved.mainHandler_eq_ok hm
      dsimp only
      obtain ⟨added, ha, hu⟩ :=
        attachFile_attaches { s with level := n, handlers := [r.main] } r
      generalize attachFile { s with level := n, handlers := [r.main] } r = attached at ha hu
      obtain ⟨_ | _, t⟩ := attached
      · dsimp only at hu ⊢
        rw [hu]
        exact .stopped hl hm ha
      · have hv := fun message => (issueAt_setup t Log.configLogger .debug message).trans hu
        have hc := fun message =>
          congrArg (fun v : Setup => { v with configured := true }) (hv message)
        exact (hc _).symm.subst (motive := Installs s.files r s.setup _) (.done hl hm ha)

theorem noteStart_setup (s : Session) :
    s.noteStart.setup =
      { s.setup with started := if s.configured then s.started else s.clock } := by
  unfold noteStart
  split
  · rename_i h
    simp [setup, h]
  · rename_i h
    simp [setup, h]

theorem configure_skips {s : Session} {c : Choices} (hs : s.configured = true)
    (hf : c.force = false) : (s.configure c).1 = .ok () ∧ (s.configure c).2.setup = s.setup := by
  have hb : (s.configured && !c.force) = true := by simp [hs, hf]
  rw [configure, if_pos hb]
  exact ⟨rfl, issueAt_setup s _ _ _⟩

theorem configure_installs {s : Session} {c : Choices} (h : s.configured = false ∨ c.force = true) :
    Installs s.files (c.resolve s.settings) s.noteStart.setup (s.configure c).1
      (s.configure c).2.setup := by
  have hb : ¬(s.configured && !c.force) = true := by
    rcases h with h | h <;> simp [h]
  rw [configure, if_neg hb]
  have hfiles : s.noteStart.files = s.files := by
    unfold noteStart
    split <;> rfl
  rw [← hfiles]
  exact install_installs s.noteStart _

end Session

end PlainJson
