import PlainJson.Proofs.Session.Reading
import PlainJson.Proofs.Text.Unquoting

/-!
What the messages tell of a text that is refused. All of them, those of the errors and those of the
records, say some words and then show the rest of the text, cut to a length and quoted. So each is
one line, from which the rest can be read back as far as it is shown.
-/
set_option autoImplicit false

namespace PlainJson

/-- What a snippet tells of its text: either all of it, or that it is longer and how it begins. A
text that ends in three points by itself is too short to be taken for one that was cut. -/
theorem Text.snippet_eq_iff {limit : Nat} {s t : List Char} :
    snippet limit s = snippet limit t ↔
      s = t ∨ limit < s.length ∧ limit < t.length ∧ s.take limit = t.take limit := by
  have hellipsis : ellipsis.length = 3 := rfl
  -- A text that is cut is shown with more characters than one that is shown whole can have.
  have hcut : ∀ {u v : List Char}, u.length ≤ limit → limit < v.length →
      snippet limit u ≠ snippet limit v := by
    intro u v hu hv he
    rw [snippet_of_le (Int.ofNat_le.2 hu), snippet_of_lt hv] at he
    have hl := congrArg List.length he
    rw [List.length_append, List.length_take_of_le (Nat.le_of_lt hv)] at hl
    omega
  by_cases hs : s.length ≤ limit <;> by_cases ht : t.length ≤ limit
  · rw [snippet_of_le (Int.ofNat_le.2 hs), snippet_of_le (Int.ofNat_le.2 ht)]
    simp [Nat.not_lt.2 hs]
  · have hne : s ≠ t := by
      rintro rfl
      exact ht hs
    simp [hcut hs (Nat.lt_of_not_le ht), hne, Nat.not_lt.2 hs]
  · have hne : s ≠ t := by
      rintro rfl
      exact hs ht
    simp [(hcut ht (Nat.lt_of_not_le hs)).symm, hne, Nat.not_lt.2 ht]
  · have hs := Nat.lt_of_not_le hs
    have ht := Nat.lt_of_not_le ht
    rw [snippet_of_lt hs, snippet_of_lt ht, List.append_cancel_right_eq]
    refine ⟨fun h => .inr ⟨hs, ht, h⟩, ?_⟩
    rintro (rfl | ⟨-, -, h⟩)
    · rfl
    · exact h

/-- Some words, and after them the rest of a text, cut and quoted. -/
def diagnostic (words : String) (limit : Nat) (rest : List Char) : String :=
  words ++ String.ofList (Text.quote (Text.snippet limit rest))

/-- The message is one line of printable characters; what it says after the words can be read back,
and is the rest of the text as far as the limit lets it be shown; and the messages about two rests
are the same only if both rests are cut and begin in the same way. -/
structure ShowsRest (words : String) (limit : Nat) (message : List Char → String) : Prop where
  oneLine : ∀ rest, ∀ c ∈ (message rest).toList, Text.Inline c
  readBack : ∀ rest, ∃ shown, message rest = words ++ String.ofList shown ∧
    Text.unquote shown = some (Text.snippet limit rest)
  same_iff : ∀ r s, message r = message s ↔
    r = s ∨ limit < r.length ∧ limit < s.length ∧ r.take limit = s.take limit

theorem showsRest {words : String} (h : ∀ c ∈ words.toList, Text.isPrintable c = true)
    (limit : Nat) : ShowsRest words limit (diagnostic words limit) where
  oneLine rest c hc := by
    rw [diagnostic, String.toList_append, String.toList_ofList, List.mem_append] at hc
    obtain hc | hc := hc
    · exact Text.inline_of_printable (h c hc)
    · exact Text.inline_of_printable (Text.isPrintable_quote _ c hc)
  readBack rest := ⟨_, rfl, Text.unquote_quote _⟩
  same_iff r s := by
    rw [← Text.snippet_eq_iff]
    refine ⟨fun he => Text.quote_injective ?_, fun he => by rw [diagnostic, he, diagnostic]⟩
    have hl := congrArg String.toList he
    simp only [diagnostic, String.toList_append, String.toList_ofList] at hl
    exact List.append_cancel_left hl

/-- The text that a command is to read. -/
def Command.text? : Command → Option String
  | .read (.text t) | .readOr (.text t) _ => some t
  | _ => none

/-- The words of the records about a text that is refused. One record tells where reading stopped;
a second is issued when a value stands in for the text. -/
def Command.failureWords (reason : Reason) : Command → List String
  | .read _ => [Session.noteText reason]
  | .readOr .. =>
    [Session.noteText reason, "Falling back to default value: " ++ (reason.text ++ " at: ")]
  | _ => []

theorem printable_words (reason : Reason) :
    ∀ c ∈ (reason.text ++ " at: ").toList, Text.isPrintable c = true := by
  apply List.all_eq_true.1
  cases reason <;> decide +kernel

theorem printable_noteText (reason : Reason) :
    ∀ c ∈ (Session.noteText reason).toList, Text.isPrintable c = true := by
  apply List.all_eq_true.1
  cases reason <;> decide +kernel

theorem printable_failureWords (reason : Reason) (c : Command) :
    ∀ words ∈ c.failureWords reason, ∀ d ∈ words.toList, Text.isPrintable d = true := by
  cases c with
  | read => simpa [Command.failureWords] using printable_noteText reason
  | readOr =>
    have hfallback : ∀ d ∈ "Falling back to default value: ".toList, Text.isPrintable d = true :=
      List.all_eq_true.1 (by decide +kernel)
    refine List.forall_mem_cons.2 ⟨printable_noteText reason, List.forall_mem_singleton.2 ?_⟩
    rw [String.toList_append, List.forall_mem_append]
    exact ⟨hfallback, printable_words reason⟩
  | set | configure | getLogger | log | perf | summary | clock | touch => exact nofun

namespace Session

/-- A reading has begun: its first record is issued, and the clock is read. -/
def beginReading (s : Session) (text : String) : Session :=
  (s.debugReader ("Parsing JSON input (" ++ Text.numeral text.length ++ " chars)")).afterReadings

def failureNotes (s : Session) (c : Command) (r : Rejection) : List String :=
  (c.failureWords r.reason).map fun words => diagnostic words s.settings.snippetLength r.remaining

variable {s : Session} {c : Command} {text : String} {r : Rejection}

theorem read_of_rejected (h : Document.read text = .error (.rejected r)) (s : Session) :
    (s.read (.text text)).2 =
      (s.beginReading text).debugReader
        (diagnostic (noteText r.reason) s.settings.snippetLength r.remaining) := by
  have hlimit : (s.beginReading text).limit = s.limit :=
    limit_of_setup (s := s) (debugReader_setup s _)
  simp only [read, h, noteReading, shownSnippet]
  exact congrArg (fun l => debugReader _ (noteText r.reason ++
    String.ofList (Text.quote (Text.snippet l r.remaining)))) hlimit

theorem readOr_of_rejected (h : Document.read text = .error (.rejected r)) (s : Session)
    (default : Value) :
    (s.readOr (.text text) default).2 =
      (s.read (.text text)).2.debugReader
        (diagnostic ("Falling back to default value: " ++ (r.reason.text ++ " at: "))
          s.settings.snippetLength r.remaining) := by
  have hx : (s.read (.text text)).1 = .error (.rejected r) := (read_fst s _).trans h
  have hlimit : (s.read (.text text)).2.limit = s.limit := limit_of_setup (read_setup s _)
  simp only [readOr, hx, noteFallback, hlimit, diagnostic, Rejection.message, String.append_assoc]
  rfl

/-- After its first record a reading of a text that is refused issues one more for each of the
words, and nothing else. -/
theorem step_of_rejected (hc : c.text? = some text)
    (h : Document.read text = .error (.rejected r)) (s : Session) :
    (s.step c).2 = (s.failureNotes c r).foldl debugReader (s.silenced.beginReading text) := by
  cases c with
  | read given =>
    cases given with
    | text t =>
      obtain rfl := Option.some.inj hc
      exact read_of_rejected h s.silenced
    | null | bool | int | double | list | tuple | dict => cases hc
  | readOr given default =>
    cases given with
    | text t =>
      obtain rfl := Option.some.inj hc
      refine (readOr_of_rejected h s.silenced default).trans ?_
      rw [read_of_rejected h]
      rfl
    | null | bool | int | double | list | tuple | dict => cases hc
  | set | configure | getLogger | log | perf | summary | clock | touch => cases hc

/-- Diagnostics are single lines, and all that they lose is what is cut off. This holds of the
message of every error, and in every session of all records about a text that is refused. -/
theorem diagnostics_show_rest :
    (∀ (reason : Reason) (limit : Nat) (setting : Int), 1 ≤ limit →
      ShowsRest (reason.text ++ " at: ") limit fun rest =>
        Rejection.message ⟨reason, rest⟩ (snippetLimit (some limit) setting)) ∧
      ∀ (s : Session) (cs : List Command) (c : Command) (text : String) (r : Rejection),
        c.text? = some text → Document.read text = .error (.rejected r) →
        let t := s.after cs
        (t.step c).2 = (t.failureNotes c r).foldl debugReader (t.silenced.beginReading text) ∧
          ∀ words ∈ c.failureWords r.reason,
            ShowsRest words t.settings.snippetLength
              (diagnostic words t.settings.snippetLength) := by
  refine ⟨fun reason limit setting hlimit => ?_, fun s cs c text r hc h => ?_⟩
  · have hgiven : snippetLimit (some limit) setting = limit := if_neg (by omega)
    rw [hgiven]
    exact showsRest (printable_words reason) limit
  · exact ⟨step_of_rejected hc h _,
      fun words hw => showsRest (printable_failureWords r.reason c words hw) _⟩

/-- The rest of the text has a line end in it, and is shown up to there. -/
theorem diagnostics_show_rest_newline :
    let s := (fresh 0).after [.set "error_snippet_length" (.int 2)]
    let c := Command.readOr (.text "1 x\ny") .null
    Document.read "1 x\ny" = .error (.rejected ⟨.trailing, "x\ny".toList⟩) ∧
      (s.step c).2 =
        ["Trailing input after JSON value: 'x\\n...'",
          "Falling back to default value: Unexpected trailing input at: 'x\\n...'"].foldl
            debugReader (s.silenced.beginReading "1 x\ny") ∧
      ShowsRest "Unexpected trailing input at: " 2 fun rest =>
        Rejection.message ⟨.trailing, rest⟩ 2 := by
  intro s c
  have hread : Document.read "1 x\ny" = .error (.rejected ⟨.trailing, "x\ny".toList⟩) := rfl
  obtain ⟨hmessage, hnotes⟩ := diagnostics_show_rest
  obtain ⟨hstep, -⟩ := hnotes (fresh 0) [.set "error_snippet_length" (.int 2)] c _ _ rfl hread
  have hshown : s.failureNotes c ⟨.trailing, "x\ny".toList⟩ =
      ["Trailing input after JSON value: 'x\\n...'",
        "Falling back to default value: Unexpected trailing input at: 'x\\n...'"] := by
    decide +kernel
  exact ⟨hread, hshown ▸ hstep, hmessage .trailing 2 40 (by decide)⟩

end Session

end PlainJson
