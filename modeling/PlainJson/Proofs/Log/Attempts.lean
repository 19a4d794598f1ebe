import PlainJson.Log.Record
import PlainJson.Log.Tally

/-!
What a table of counts comes to after records were asked for. An attempt is counted if the root lets
it through and its logger counts; what the table then holds is told by the attempts alone, in
whatever order the loggers and the severities come.
-/
set_option autoImplicit false

namespace PlainJson.Log

/-- A record that a logger is asked for, with the level of the root at that moment. -/
structure Attempt where
  logger : String
  level : Int
  threshold : Int
  deriving DecidableEq, Repr

namespace Attempt

def passes (a : Attempt) : Bool := decide (0 < a.level) && decide (a.threshold ≤ a.level)

def counted (a : Attempt) : Bool := a.passes && !isPlain a.logger

def isAt (a : Attempt) (logger : String) (l : Severity) : Bool :=
  a.logger == logger && a.level == l.rank

theorem counted_of_not_plain {a : Attempt} (h : isPlain a.logger = false) :
    a.counted = a.passes := by
  simp [counted, h]

theorem counted_and_isAt {logger : String} (h : isPlain logger = false) (a : Attempt)
    (l : Severity) : (a.counted && a.isAt logger l) = (a.passes && a.isAt logger l) := by
  by_cases ha : a.logger = logger
  · rw [counted_of_not_plain (ha ▸ h)]
  · have hb : (a.logger == logger) = false := by simpa using ha
    simp [isAt, hb]

end Attempt

namespace Tally

def names (t : Tally) : List String := t.map Prod.fst

def noteAttempt (t : Tally) (a : Attempt) : Tally :=
  if a.counted then t.note a.logger (Severity.ofRank? a.level) else t

def noteAll (t : Tally) (as : List Attempt) : Tally := as.foldl noteAttempt t

@[simp] theorem get_empty (logger : String) (l : Severity) : get [] logger l = 0 := rfl

@[simp] theorem noteAll_nil (t : Tally) : t.noteAll [] = t := rfl

@[simp] theorem noteAll_cons (t : Tally) (a : Attempt) (as : List Attempt) :
    t.noteAll (a :: as) = (t.noteAttempt a).noteAll as := rfl

theorem noteAll_append (t : Tally) (as bs : List Attempt) :
    t.noteAll (as ++ bs) = (t.noteAll as).noteAll bs := List.foldl_append

theorem noteAttempt_of_plain {a : Attempt} (h : isPlain a.logger = true) (t : Tally) :
    t.noteAttempt a = t := by
  simp [noteAttempt, Attempt.counted, h]

theorem totalOf_eq (t : Tally) (logger : String) :
    t.totalOf logger = t.get logger .debug + t.get logger .info + t.get logger .warning +
      t.get logger .error + t.get logger .critical := by
  unfold totalOf get
  split <;> rfl

theorem get_note_none (t : Tally) (logger : String) (m : Severity) :
    (t.note logger none).get logger m = t.get logger m := by
  induction t with
  | nil => simp [note, get, counts?]
  | cons e rest ih =>
    obtain ⟨name, c⟩ := e
    by_cases h : name = logger
    · simp [note, get, counts?, h]
    · have hb : (logger == name) = false := by simpa using fun hn => h hn.symm
      simpa [note, get, counts?, List.lookup_cons, h, hb] using ih

theorem get_note (t : Tally) (logger other : String) (severity : Option Severity) (m : Severity) :
    (t.note logger severity).get other m =
      t.get other m + if other = logger ∧ severity = some m then 1 else 0 := by
  by_cases h : other = logger
  · subst h
    cases severity with
    | none => simp [get_note_none]
    | some l => simp [get_note_self, eq_comm]
  · simp [get, counts?_note_ne h, h]

theorem get_noteAttempt (t : Tally) (a : Attempt) (logger : String) (l : Severity) :
    (t.noteAttempt a).get logger l =
      t.get logger l + if a.counted && a.isAt logger l then 1 else 0 := by
  unfold noteAttempt
  split
  · rename_i h
    simp [get_note, h, Attempt.isAt, Severity.ofRank?_eq_some_iff, eq_comm (a := logger)]
  · rename_i h
    simp [h]

/-- A count has grown by the attempts that it counts. -/
theorem get_noteAll (t : Tally) (as : List Attempt) (logger : String) (l : Severity) :
    (t.noteAll as).get logger l =
      t.get logger l + as.countP fun a => a.counted && a.isAt logger l := by
  induction as generalizing t with
  | nil => rfl
  | cons a as ih =>
    rw [noteAll_cons, ih, get_noteAttempt, List.countP_cons]
    omega

theorem get_le_noteAll (t : Tally) (as : List Attempt) (logger : String) (l : Severity) :
    t.get logger l ≤ (t.noteAll as).get logger l := by
  rw [get_noteAll]
  exact Nat.le_add_right _ _

theorem counts?_noteAll_of_ne {as : List Attempt} {logger : String}
    (h : ∀ a ∈ as, a.logger ≠ logger) (t : Tally) :
    (t.noteAll as).counts? logger = t.counts? logger := by
  induction as generalizing t with
  | nil => rfl
  | cons a as ih =>
    obtain ⟨ha, has⟩ := List.forall_mem_cons.1 h
    rw [noteAll_cons, ih has, noteAttempt]
    split
    · exact counts?_note_ne ha.symm t _
    · rfl

theorem noteAll_of_not_counted {as : List Attempt} (h : ∀ a ∈ as, a.counted = false) (t : Tally) :
    t.noteAll as = t := by
  induction as with
  | nil => rfl
  | cons a as ih =>
    obtain ⟨ha, has⟩ := List.forall_mem_cons.1 h
    have hn : t.noteAttempt a = t := by simp [noteAttempt, ha]
    rw [noteAll_cons, hn, ih has]

/-- However often one record is asked for, the counts of another logger stay as they are. -/
theorem counts?_noteAll_replicate {a : Attempt} {logger : String} (h : logger ≠ a.logger) (k : Nat)
    (t : Tally) : (t.noteAll (List.replicate k a)).counts? logger = t.counts? logger := by
  refine counts?_noteAll_of_ne (fun b hb => ?_) t
  rw [List.eq_of_mem_replicate hb]
  exact h.symm

theorem noteAll_replicate_of_not_counted {a : Attempt} (h : a.counted = false) (k : Nat)
    (t : Tally) : t.noteAll (List.replicate k a) = t := by
  refine noteAll_of_not_counted (fun b hb => ?_) t
  rw [List.eq_of_mem_replicate hb, h]

theorem isSome_counts? (t : Tally) (logger : String) :
    (t.counts? logger).isSome = true ↔ logger ∈ t.names := by
  induction t with
  | nil => simp [counts?, names]
  | cons e rest ih =>
    obtain ⟨name, c⟩ := e
    by_cases h : logger = name
    · simp [counts?, names, h]
    · have hb : (logger == name) = false := by simpa using h
      simp only [counts?, names] at ih
      simp [counts?, names, List.lookup_cons, h, hb, ih]

theorem names_note (t : Tally) (logger : String) (severity : Option Severity) :
    (t.note logger severity).names = if logger ∈ t.names then t.names else t.names ++ [logger] := by
  induction t with
  | nil => simp [note, names]
  | cons e rest ih =>
    obtain ⟨name, c⟩ := e
    by_cases h : name = logger
    · simp [note, names, h]
    · have hn : logger ≠ name := fun he => h he.symm
      simp only [names] at ih
      by_cases hm : logger ∈ rest.map Prod.fst
      · simp only [note, names, if_neg h, List.map_cons, ih, List.mem_cons, hn, hm, or_true,
          if_true]
      · simp only [note, names, if_neg h, List.map_cons, ih, List.mem_cons, hn, hm, or_self,
          if_false, List.cons_append]

theorem nodup_noteAll {t : Tally} (h : t.names.Nodup) (as : List Attempt) :
    (t.noteAll as).names.Nodup := by
  induction as generalizing t with
  | nil => exact h
  | cons a as ih =>
    refine ih ?_
    unfold noteAttempt
    split
    · rw [names_note]
      split
      · exact h
      · rename_i hn
        refine List.nodup_append.2 ⟨h, List.pairwise_singleton _ _, fun n hm m he => ?_⟩
        rw [List.mem_singleton.1 he]
        exact fun hne => hn (hne ▸ hm)
    · exact h

theorem eraseDups_concat (ns : List String) (n : String) :
    (ns ++ [n]).eraseDups = if n ∈ ns.eraseDups then ns.eraseDups else ns.eraseDups ++ [n] := by
  rw [List.eraseDups_append, List.cons_removeAll, List.nil_removeAll]
  by_cases h : n ∈ ns <;> simp [h, List.eraseDups_cons]

/-- The loggers come in the order of their first attempts that were counted. -/
theorem names_noteAll {t : Tally} {ns : List String} (h : t.names = ns.eraseDups)
    (as : List Attempt) :
    (t.noteAll as).names =
      (ns ++ (as.filter Attempt.counted).map Attempt.logger).eraseDups := by
  induction as generalizing t ns with
  | nil => simpa using h
  | cons a as ih =>
    rw [noteAll_cons]
    by_cases ha : a.counted
    · have hn : (t.noteAttempt a).names = (ns ++ [a.logger]).eraseDups := by
        rw [noteAttempt, if_pos ha, names_note, eraseDups_concat, h]
      simpa [ha] using ih hn
    · have hn : (t.noteAttempt a).names = ns.eraseDups := by
        rw [noteAttempt, if_neg ha, h]
      simpa [ha] using ih hn

end Tally

end PlainJson.Log
