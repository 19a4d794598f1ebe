import PlainJson.Proofs.Session.Steps

/-!
Reading is the same in every session. Whatever was done before, and whether it succeeded or not, a
text has the same outcome, with a value to stand in for it or without. The session shows only in the
message about a text that is refused, which is cut to the length that the settings give.
-/
set_option autoImplicit false

namespace PlainJson

/-- What comes of the reading that a command asks for. -/
def Command.reading? : Command → Option (Except ReadError Value)
  | .read given => some (Document.readGiven given)
  | .readOr given default => some (Document.readOr given default)
  | _ => none

theorem ReadError.message_eq {e : ReadError} (h : ∀ r, e ≠ .rejected r) (m n : Int) :
    e.message m = e.message n := by
  cases e with
  | notText | fault => rfl
  | rejected r => exact absurd rfl (h r)

namespace Session

def answered : Except ReadError Value → Except SessionError Reply
  | .ok v => .ok (.value v)
  | .error e => .error (.read e)

/-- The message of a step that ends by refusing what it was to read. -/
def readMessage? (x : Step) : Option String :=
  match x.1 with
  | .error (.read e) => some (e.message x.2.limit)
  | _ => none

variable {s t : Session} {c : Command} {x : Except ReadError Value}

theorem ofRead_fst (p : Except ReadError Value × Session) : (ofRead p).1 = answered p.1 := by
  obtain ⟨_ | _, _⟩ := p <;> rfl

theorem limit_of_setup (h : t.setup = s.setup) : t.limit = s.limit := by
  rw [limit, limit, settings_of_setup h]

/-- A reading is answered without regard to the session, and leaves it set up as it was. -/
theorem step_reading (h : c.reading? = some x) (s : Session) :
    (s.step c).1 = answered x ∧ (s.step c).2.setup = s.setup := by
  rw [step_eq]
  cases c with
  | read given =>
    cases h
    exact ⟨(ofRead_fst _).trans (congrArg answered (read_fst _ given)), read_setup _ given⟩
  | readOr given default =>
    cases h
    exact ⟨(ofRead_fst _).trans (congrArg answered (readOr_fst _ given default)),
      readOr_setup _ given default⟩
  | set | configure | getLogger | log | perf | summary | clock | touch => cases h

theorem readMessage?_step (h : c.reading? = some x) (s : Session) :
    readMessage? (s.step c) =
      match x with
      | .ok _ => none
      | .error e => some (e.message s.limit) := by
  obtain ⟨hx, hs⟩ := step_reading h s
  simp only [readMessage?, hx, limit_of_setup hs]
  cases x <;> rfl

/-- A reading that comes to `x` has the same answer in both sessions, which is `x`. If it refuses a
text, each message is cut to the length that holds in its own session; any other message is the
same. -/
structure SameReading (s t : Session) (c : Command) (x : Except ReadError Value) : Prop where
  same : (s.step c).1 = (t.step c).1
  answer : (s.step c).1 = answered x
  refused : ∀ r, x = .error (.rejected r) →
    readMessage? (s.step c) = some (r.message s.limit) ∧
      readMessage? (t.step c) = some (r.message t.limit)
  otherwise : (∀ r, x ≠ .error (.rejected r)) → readMessage? (s.step c) = readMessage? (t.step c)

theorem sameReading (h : c.reading? = some x) (s t : Session) : SameReading s t c x where
  same := (step_reading h s).1.trans (step_reading h t).1.symm
  answer := (step_reading h s).1
  refused r hr := by
    subst hr
    exact ⟨readMessage?_step h s, readMessage?_step h t⟩
  otherwise hr := by
    rw [readMessage?_step h s, readMessage?_step h t]
    obtain e | _ := x
    · have he : ∀ r, e ≠ .rejected r := fun r he => hr r (he ▸ rfl)
      exact congrArg some (ReadError.message_eq he _ _)
    · rfl

/-- After any commands, in any two sessions, what is given to read has the same outcome, and so it
has with a value to stand in for a text that is refused. -/
theorem reading_same_everywhere (s t : Session) (cs ds : List Command) (given default : Value) :
    SameReading (s.after cs) (t.after ds) (.read given) (Document.readGiven given) ∧
      SameReading (s.after cs) (t.after ds) (.readOr given default)
        (Document.readOr given default) :=
  ⟨sameReading rfl _ _, sameReading rfl _ _⟩

/-- A session with short messages that could not be configured, and one where nothing was done. -/
theorem reading_same_everywhere_trailing :
    let s := (fresh 0).after [.set "error_snippet_length" (.int 5),
      .configure ⟨some "loud", none, none, none, true⟩]
    let t := (fresh 0).after []
    let c := Command.read (.text "1 trailing")
    Document.readGiven (.text "1 trailing") =
        .error (.rejected ⟨.trailing, "trailing".toList⟩) ∧
      (s.step c).1 = (t.step c).1 ∧
      readMessage? (s.step c) = some "Unexpected trailing input at: 'trail...'" ∧
      readMessage? (t.step c) = some "Unexpected trailing input at: 'trailing'" := by
  have hread := (reading_same_everywhere (fresh 0) (fresh 0)
    [.set "error_snippet_length" (.int 5), .configure ⟨some "loud", none, none, none, true⟩] []
    (.text "1 trailing") .null).1
  have hx : Document.readGiven (.text "1 trailing") =
      .error (.rejected ⟨.trailing, "trailing".toList⟩) := rfl
  obtain ⟨hs, ht⟩ := hread.refused _ hx
  exact ⟨hx, hread.same, hs.trans (by decide), ht.trans (by decide)⟩

end Session

end PlainJson
