import ComponentLoader.Session.Load
set_option autoImplicit false

/-!
# Triples for steps of a session (SPEC §4.5)

`Triple before step after failed` says where a step leads from the sessions in `before`: if it
answers a value, to a session that `after` relates to the value, and if it fails, to one in
`failed`.  There is a rule for each way in which steps are put together.  Nothing is said about
which error a failing step reports.
-/

namespace ComponentLoader.Session

/-- From every session in `before` the step answers a value as in `after`, or
fails as in `failed`. -/
def Triple {α : Type} (before : Session → Prop) (step : SessionM α) (after : α → Session → Prop)
    (failed : Session → Prop) : Prop :=
  ∀ session, before session →
    match step session with
    | .ok value next => after value next
    | .error _ next => failed next

namespace Triple

variable {α β : Type} {before : Session → Prop} {step : SessionM α}
  {after after' : α → Session → Prop} {failed failed' : Session → Prop}

theorem weaken (h : Triple before step after failed)
    (hafter : ∀ value session, after value session → after' value session)
    (hfailed : ∀ session, failed session → failed' session) :
    Triple before step after' failed' := by
  intro session hsession
  have hstep := h session hsession
  cases hrun : step session with
  | ok value next =>
      rw [hrun] at hstep
      exact hafter value next hstep
  | error e next =>
      rw [hrun] at hstep
      exact hfailed next hstep

theorem weaken_failed (h : Triple before step after failed)
    (hfailed : ∀ session, failed session → failed' session) : Triple before step after failed' :=
  h.weaken (fun _ _ hafter => hafter) hfailed

/-- A fact that does not depend on the session can be taken out of the precondition. -/
theorem assuming {fact : Prop} (h : fact → Triple before step after failed) :
    Triple (fun session => before session ∧ fact) step after failed :=
  fun session hsession => h hsession.2 session hsession.1

theorem pure {value : α} (h : ∀ session, before session → after value session) :
    Triple before (Pure.pure value) after failed :=
  h

theorem throw {e : LoadError} (h : ∀ session, before session → failed session) :
    Triple before (MonadExcept.throw e : SessionM α) after failed :=
  h

theorem modify {change : Session → Session} {after : Unit → Session → Prop}
    (h : ∀ session, before session → after () (change session)) :
    Triple before (modify change) after failed :=
  h

theorem bind {between : α → Session → Prop} {next : α → SessionM β}
    {after : β → Session → Prop} (hstep : Triple before step between failed)
    (hnext : ∀ value, Triple (between value) (next value) after failed) :
    Triple before (step >>= next) after failed := by
  intro session hsession
  have hfirst := hstep session hsession
  show match EStateM.bind step next session with
    | .ok value final => after value final
    | .error _ final => failed final
  unfold EStateM.bind
  cases hrun : step session with
  | ok value middle =>
      rw [hrun] at hfirst
      exact hnext value middle hfirst
  | error e middle =>
      rw [hrun] at hfirst
      exact hfirst

/-- What is read from a session is a session that satisfies the precondition. -/
theorem get_bind {next : Session → SessionM α}
    (h : ∀ session, before session → Triple before (next session) after failed) :
    Triple before (get >>= next) after failed :=
  fun session hsession => h session hsession session hsession

theorem map {f : α → β} {after : β → Session → Prop}
    (h : Triple before step (fun value => after (f value)) failed) :
    Triple before (f <$> step) after failed := by
  intro session hsession
  have hstep := h session hsession
  show match EStateM.map f step session with
    | .ok value final => after value final
    | .error _ final => failed final
  unfold EStateM.map
  cases hrun : step session with
  | ok value next =>
      rw [hrun] at hstep
      exact hstep
  | error e next =>
      rw [hrun] at hstep
      exact hstep

end Triple

/-! ## Answers -/

/-- The step answers a value from a session. -/
def Answers {α : Type} (step : SessionM α) (session : Session) (value : α) : Prop :=
  ∃ next, step session = .ok value next

/-- Whether a step answers a value is found by taking it. -/
instance {α : Type} [DecidableEq α] (step : SessionM α) (session : Session) (value : α) :
    Decidable (Answers step session value) :=
  match hrun : step session with
  | .ok answer next =>
    if heq : answer = value then .isTrue ⟨next, by rw [hrun, heq]⟩
    else .isFalse fun ⟨final, hfinal⟩ => by
      rw [hrun] at hfinal
      cases hfinal
      exact heq rfl
  | .error e next =>
    .isFalse fun ⟨final, hfinal⟩ => by
      rw [hrun] at hfinal
      cases hfinal

/-- The step reports an error from a session. -/
def Fails {α : Type} (step : SessionM α) (session : Session) (e : LoadError) : Prop :=
  ∃ next, step session = .error e next

/-- Whether a step reports an error is found by taking it, too. -/
instance {α : Type} (step : SessionM α) (session : Session) (e : LoadError) :
    Decidable (Fails step session e) :=
  match hrun : step session with
  | .ok answer next =>
    .isFalse fun ⟨final, hfinal⟩ => by
      rw [hrun] at hfinal
      cases hfinal
  | .error found next =>
    if heq : found = e then .isTrue ⟨next, by rw [hrun, heq]⟩
    else .isFalse fun ⟨final, hfinal⟩ => by
      rw [hrun] at hfinal
      cases hfinal
      exact heq rfl

/-- The session after a step, whether it failed or not. -/
def after {α : Type} (step : SessionM α) (session : Session) : Session :=
  match step session with
  | .ok _ next => next
  | .error _ next => next

variable {α : Type} {before : Session → Prop} {step : SessionM α} {session : Session}

/-- What a step answers is as its triple says. -/
theorem Triple.of_answers {specified : α → Prop} {failed : Session → Prop}
    (h : Triple before step (fun value _ => specified value) failed) (hbefore : before session)
    {value : α} (hanswer : Answers step session value) : specified value := by
  have hstep := h session hbefore
  obtain ⟨next, hrun⟩ := hanswer
  rw [hrun] at hstep
  exact hstep

/-- A step whose values are specified, and which fails only where none is, answers what is
specified. -/
theorem Triple.answers_iff {specified : α → Prop} {failed : Session → Prop}
    (h : Triple before step (fun value _ => specified value) failed)
    (hfailed : ∀ next, failed next → ∀ value, ¬ specified value)
    (hunique : ∀ value value', specified value → specified value' → value = value')
    (hbefore : before session) {value : α} : Answers step session value ↔ specified value := by
  refine ⟨h.of_answers hbefore, ?_⟩
  intro hspecified
  have hstep := h session hbefore
  unfold Answers
  cases hrun : step session with
  | ok answer next =>
      rw [hrun] at hstep
      exact ⟨next, by rw [hunique value answer hspecified hstep]⟩
  | error e next =>
      rw [hrun] at hstep
      exact absurd hspecified (hfailed next hstep value)

/-- The same for a step whose value is handed on as one that may be missing. -/
theorem Triple.answers_some_iff {specified : α → Prop}
    (h : Triple before step (fun value _ => specified value) (fun _ => ∀ value, ¬ specified value))
    (hunique : ∀ value value', specified value → specified value' → value = value')
    (hbefore : before session) {answer : Option α} :
    Answers (some <$> step) session answer ↔ ∃ value, specified value ∧ answer = some value := by
  have hmap : Triple before (some <$> step)
      (fun answer _ => ∃ value, specified value ∧ answer = some value)
      (fun _ => ∀ value, ¬ specified value) := by
    apply Triple.map
    exact h.weaken (fun value _ hvalue => ⟨value, hvalue, rfl⟩) fun _ hnone => hnone
  refine hmap.answers_iff ?_ ?_ hbefore
  · intro next hnone answer hanswer
    obtain ⟨value, hvalue, -⟩ := hanswer
    exact hnone value hvalue
  · intro answer answer' hanswer hanswer'
    obtain ⟨value, hvalue, rfl⟩ := hanswer
    obtain ⟨value', hvalue', rfl⟩ := hanswer'
    rw [hunique value value' hvalue hvalue']

/-- What holds after a step in either case holds of the session after it. -/
theorem Triple.after_of {kept : Session → Prop} (h : Triple before step (fun _ => kept) kept)
    (hbefore : before session) : kept (Session.after step session) := by
  have hstep := h session hbefore
  unfold Session.after
  cases hrun : step session with
  | ok value next =>
      rw [hrun] at hstep
      exact hstep
  | error e next =>
      rw [hrun] at hstep
      exact hstep

end ComponentLoader.Session
