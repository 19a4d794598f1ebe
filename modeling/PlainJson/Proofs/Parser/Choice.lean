import PlainJson.Recipe

/-!
Ordered choice. An alternative is built when its turn comes, and what is built runs on the view that
the choice was given. The first alternative that does not fail settles the choice, by a value or by
a fault, and those behind it are never built. So a run records what the alternatives record up to
that one, in order, and a choice among the alternatives of a choice might as well be one choice.
-/
set_option autoImplicit false

namespace PlainJson.Parser

variable {α : Type} {v : View} {build : Unit → Run (Parser α)}
  {before bs behind : List (Unit → Run (Parser α))}

/-- An alternative by itself: it is built, once, and what is built runs on the view. -/
def attempt (v : View) (build : Unit → Run (Parser α)) : Run (Outcome α) :=
  (build ()).andThen fun p => p.run v

/-- The alternative fails, so that it is the turn of the next. -/
def PassesOver (v : View) (build : Unit → Run (Parser α)) : Prop :=
  ∃ w, (attempt v build).ending = .ok (.failure w)

/-- What the alternatives record, one after another. -/
def records (v : View) (builds : List (Unit → Run (Parser α))) : List Event :=
  builds.flatMap fun build => (attempt v build).events

/-- An alternative that is itself a choice. Building it may record events, but builds none of the
alternatives inside. -/
def nested (es : List Event) (bs : List (Unit → Run (Parser α))) : Unit → Run (Parser α) :=
  fun _ => ⟨es, .ok (eitherOf bs)⟩

theorem firstOf_cons :
    firstOf v (build :: behind) = (attempt v build).andThen fun
      | .success w a => .done (.success w a)
      | .failure _ => firstOf v behind := by
  rw [attempt, Run.andThen_assoc]
  rfl

theorem firstOf_passes (h : PassesOver v build) :
    firstOf v (build :: behind) = (firstOf v behind).after (attempt v build).events := by
  obtain ⟨w, hw⟩ := h
  simp only [firstOf_cons, Run.andThen, hw]

theorem firstOf_settles (h : ¬ PassesOver v build) :
    firstOf v (build :: behind) = attempt v build := by
  simp only [PassesOver] at h
  rw [firstOf_cons]
  generalize attempt v build = x at h ⊢
  rcases x with ⟨es, e | ⟨w, a⟩ | w⟩
  · rfl
  · simp [Run.andThen, Run.after, Run.done]
  · exact (h ⟨w, rfl⟩).elim

/-- Alternatives that fail leave only what they recorded. -/
theorem firstOf_append (h : ∀ b ∈ before, PassesOver v b) :
    firstOf v (before ++ behind) = (firstOf v behind).after (records v before) := by
  induction before with
  | nil => rfl
  | cons b before ih =>
    have ih := ih fun a ha => h a (by simp [ha])
    simp [firstOf_passes (h b (by simp)), ih, records]

/-- The alternatives up to the first that does not fail. -/
theorem exists_settling (h : ∃ b ∈ bs, ¬ PassesOver v b) :
    ∃ as b cs, bs = as ++ b :: cs ∧ (∀ a ∈ as, PassesOver v a) ∧ ¬ PassesOver v b := by
  induction bs with
  | nil => simp at h
  | cons b bs ih =>
    by_cases hb : PassesOver v b
    · have ht : ∃ c ∈ bs, ¬ PassesOver v c := by simpa [hb] using h
      obtain ⟨as, c, cs, rfl, ha, hn⟩ := ih ht
      exact ⟨b :: as, c, cs, rfl, List.forall_mem_cons.2 ⟨hb, ha⟩, hn⟩
    · exact ⟨[], b, bs, rfl, by simp, hb⟩

theorem firstOf_settled (h : ∀ b ∈ before, PassesOver v b) (hn : ¬ PassesOver v build) :
    firstOf v (before ++ build :: behind) = (attempt v build).after (records v before) := by
  rw [firstOf_append h, firstOf_settles hn]

/-- Behind an alternative that does not fail, nothing is built. -/
theorem firstOf_append_settled (h : ∃ b ∈ bs, ¬ PassesOver v b) :
    firstOf v (bs ++ behind) = firstOf v bs := by
  obtain ⟨as, b, cs, rfl, ha, hn⟩ := exists_settling h
  rw [List.append_assoc, List.cons_append, firstOf_settled ha hn, firstOf_settled ha hn]

theorem firstOf_all_pass (h : ∀ b ∈ bs, PassesOver v b) :
    firstOf v bs = ⟨records v bs, .ok (.failure v)⟩ := by
  have ha : firstOf v (bs ++ []) = (firstOf v []).after (records v bs) := firstOf_append h
  simpa [firstOf, Run.after, Run.done] using ha

theorem attempt_nested (es : List Event) :
    attempt v (nested es bs) = (firstOf v bs).after es := rfl

/-- A choice inside fails exactly if all its alternatives do. -/
theorem passesOver_nested (es : List Event) :
    PassesOver v (nested es bs) ↔ ∀ b ∈ bs, PassesOver v b := by
  refine ⟨fun hh => Classical.byContradiction fun hn => ?_, fun h => ?_⟩
  · have hx : ∃ b ∈ bs, ¬ PassesOver v b := by simpa using hn
    obtain ⟨as, b, cs, rfl, ha, hb⟩ := exists_settling hx
    obtain ⟨w, hw⟩ := hh
    rw [attempt_nested, firstOf_settled ha hb] at hw
    exact hb ⟨w, hw⟩
  · exact ⟨v, by simp [attempt_nested, firstOf_all_pass h, Run.after]⟩

/-- The alternatives of a choice inside can stand in its place. -/
theorem firstOf_nested (es : List Event) :
    firstOf v (nested es bs :: behind) = (firstOf v (bs ++ behind)).after es := by
  by_cases h : ∀ b ∈ bs, PassesOver v b
  · rw [firstOf_passes ((passesOver_nested es).2 h), firstOf_append h, attempt_nested,
      firstOf_all_pass h, Run.after_after]
    rfl
  · have hx : ∃ b ∈ bs, ¬ PassesOver v b := by simpa using h
    rw [firstOf_settles fun hp => h ((passesOver_nested es).1 hp), firstOf_append_settled hx,
      attempt_nested]

/-- What a choice shows before it runs is the same for all alternatives. When it runs, they take
their turns in order, each built once and run on the view itself. If all of them fail, or if there
are none, so does the choice, at the view. Otherwise it ends as the first that does not fail, by a
value or by a fault, whatever comes behind. A choice inside a choice comes to the same as its
alternatives in its place, but for what building it records. -/
theorem eitherOf_in_order (bs : List (Unit → Run (Parser α))) (v : View) :
    (∀ cs : List (Unit → Run (Parser α)), (eitherOf cs).label = (eitherOf bs).label) ∧
    ((∀ b ∈ bs, PassesOver v b) → (eitherOf bs).run v = ⟨records v bs, .ok (.failure v)⟩) ∧
    ((∃ b ∈ bs, ¬ PassesOver v b) → ∃ as b cs,
      bs = as ++ b :: cs ∧ (∀ a ∈ as, PassesOver v a) ∧ ¬ PassesOver v b ∧
        ∀ ds, (eitherOf (as ++ b :: ds)).run v =
          ⟨records v as ++ (attempt v b).events, (attempt v b).ending⟩) ∧
    ∀ as cs es,
      ((eitherOf (as ++ [nested es bs] ++ cs)).run v).ending =
        ((eitherOf (as ++ bs ++ cs)).run v).ending ∧
      ((∃ a ∈ as, ¬ PassesOver v a) →
        (eitherOf (as ++ [nested es bs] ++ cs)).run v = (eitherOf (as ++ bs ++ cs)).run v) ∧
      ((∀ a ∈ as, PassesOver v a) → ∃ rest,
        ((eitherOf (as ++ bs ++ cs)).run v).events = records v as ++ rest ∧
        ((eitherOf (as ++ [nested es bs] ++ cs)).run v).events = records v as ++ (es ++ rest)) := by
  refine ⟨fun _ => rfl, firstOf_all_pass, fun h => ?_, fun as cs es => ?_⟩
  · obtain ⟨as, b, cs, hb, ha, hn⟩ := exists_settling h
    exact ⟨as, b, cs, hb, ha, hn, fun ds => firstOf_settled ha hn⟩
  · simp only [eitherOf, List.append_assoc, List.singleton_append]
    by_cases ha : ∀ a ∈ as, PassesOver v a
    · simp only [firstOf_append ha, firstOf_nested, Run.after_after]
      refine ⟨rfl, fun hx => ?_, fun _ => ⟨(firstOf v (bs ++ cs)).events, rfl, ?_⟩⟩
      · obtain ⟨a, hm, hn⟩ := hx
        exact (hn (ha a hm)).elim
      · simp [Run.after]
    · have hx : ∃ a ∈ as, ¬ PassesOver v a := by simpa using ha
      simp [firstOf_append_settled hx, ha]

/-- The third alternative is not built. -/
example :
    ((Recipe.parser [] (.either [.lazy "f" (.spy "x" (.literal "x")),
        .lazy "g" (.spy "a" (.literal "a")), .lazy "h" .anyChar])).runOn "ab").events =
      [.built "f", .call "x" 0, .fail "x" 0, .built "g", .call "a" 0, .ok "a" 1] := rfl

end PlainJson.Parser
