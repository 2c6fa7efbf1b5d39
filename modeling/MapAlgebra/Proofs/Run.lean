import Mathlib.Order.Defs.Unbundled
import MapAlgebra.Session

/-!
# Outcomes of steps

What each step of a run gives and the session it leaves, and the outcome of steps in a row.
-/

namespace MapAlgebra

namespace Session

variable {K V S : Type}

@[simp] theorem counter_addRecord (session : Session K V S) (record : Record) :
    (session.addRecord record).counter = session.counter := by
  unfold addRecord
  dsimp only
  split
  next => rfl
  next => split <;> rfl

theorem table_addRecord (session : Session K V S) (record : Record) :
    (session.addRecord record).table = session.table := by
  unfold addRecord
  dsimp only
  split
  next => rfl
  next => split <;> rfl

@[simp] theorem counter_foldl_addRecord (records : List Record) (session : Session K V S) :
    (records.foldl addRecord session).counter = session.counter := by
  induction records generalizing session with
  | nil => rfl
  | cons record records ih => rw [List.foldl_cons, ih, counter_addRecord]

end Session

/-- The name of an expression number. -/
def expressionId (number : Nat) : Text :=
  "Exp".toList ++ Nat.toDigits 10 number

namespace Run

variable {K V S α β : Type} {session after : Session K V S}

@[simp] theorem from?_pure (a : α) :
    from? session (pure a : Run K V S α) = (.ok a, session) := rfl

theorem from?_pure_eq_ok {a b : α} :
    from? session (pure a : Run K V S α) = (.ok b, after) ↔ a = b ∧ session = after := by
  rw [from?_pure, Prod.mk.injEq, Except.ok.injEq]

@[simp] theorem from?_get :
    from? session (get : Run K V S (Session K V S)) = (.ok session, session) := rfl

@[simp] theorem from?_set (next : Session K V S) :
    from? session (set next : Run K V S Unit) = (.ok (), next) := rfl

@[simp] theorem from?_liftExcept (outcome : Except Fault α) :
    from? session (liftExcept outcome : Run K V S α) = (outcome, session) := by
  cases outcome <;> rfl

theorem from?_liftExcept_eq_ok {outcome : Except Fault α} {a : α} :
    from? session (liftExcept outcome : Run K V S α) = (.ok a, after) ↔
      outcome = .ok a ∧ session = after := by
  rw [from?_liftExcept, Prod.mk.injEq]

theorem from?_bind (step : Run K V S α) (next : α → Run K V S β) :
    from? session (step >>= next) =
      match from? session step with
      | (.ok a, after) => from? after (next a)
      | (.error fault, after) => (.error fault, after) := by
  simp only [from?, ExceptT.run_bind, StateT.run_bind]
  rcases step.run.run session with ⟨_ | a, after⟩ <;> rfl

/-- Two steps in a row give a result when the first gives one that the second goes on with. -/
theorem from?_bind_eq_ok {step : Run K V S α} {next : α → Run K V S β} {b : β} :
    from? session (step >>= next) = (.ok b, after) ↔
      ∃ a between, from? session step = (.ok a, between) ∧
        from? between (next a) = (.ok b, after) := by
  rw [from?_bind]
  constructor
  · intro h
    split at h
    next a between heq => exact ⟨a, between, heq, h⟩
    next => cases h
  · rintro ⟨a, between, heq, h⟩
    rw [heq]
    exact h

/-- Two steps in a row fail when the first fails or the second fails behind it. -/
theorem from?_bind_eq_error {step : Run K V S α} {next : α → Run K V S β} {fault : Fault} :
    from? session (step >>= next) = (.error fault, after) ↔
      from? session step = (.error fault, after) ∨
        ∃ a between, from? session step = (.ok a, between) ∧
          from? between (next a) = (.error fault, after) := by
  rw [from?_bind]
  rcases from? session step with ⟨other | a, between⟩
  · constructor
    · intro h
      cases h
      exact .inl rfl
    · rintro (h | ⟨_, _, h, -⟩) <;> cases h
      rfl
  · constructor
    · intro h
      exact .inr ⟨a, between, rfl, h⟩
    · rintro (h | ⟨_, _, h, hnext⟩)
      · cases h
      · cases h
        exact hnext

@[simp] theorem from?_record (level : Level) (text : String) :
    from? session (record level text : Run K V S Unit) =
      (.ok (), session.addRecord ⟨level, text⟩) := rfl

theorem from?_record_eq_ok {level : Level} {text : String} {u : Unit} :
    from? session (record level text : Run K V S Unit) = (.ok u, after) ↔
      session.addRecord ⟨level, text⟩ = after := by
  simp

theorem from?_traced (computation : Traced α) :
    from? session (traced computation : Run K V S α) =
      (computation.outcome.1, computation.outcome.2.foldl Session.addRecord session) := by
  show from? _ (liftExcept computation.outcome.1) = _
  exact from?_liftExcept _

theorem from?_traced_eq_ok {computation : Traced α} {a : α} :
    from? session (traced computation : Run K V S α) = (.ok a, after) ↔
      computation.outcome.1 = .ok a ∧
        computation.outcome.2.foldl Session.addRecord session = after := by
  rw [from?_traced, Prod.mk.injEq]

theorem from?_nextId :
    from? session (nextId : Run K V S Text) =
      (.ok (expressionId (session.counter + 1)),
        { session with counter := session.counter + 1 }) := rfl

theorem from?_nextId_eq_ok {id : Text} :
    from? session (nextId : Run K V S Text) = (.ok id, after) ↔
      expressionId (session.counter + 1) = id ∧
        { session with counter := session.counter + 1 } = after := by
  rw [from?_nextId, Prod.mk.injEq, Except.ok.injEq]

theorem from?_changeFiles (change : FileTree → Except Fault α × FileTree) :
    from? session (changeFiles change : Run K V S α) =
      ((change session.files).1, { session with files := (change session.files).2 }) := by
  show from? _ (liftExcept (change session.files).1) = _
  exact from?_liftExcept _

theorem from?_changeFiles_eq_ok {change : FileTree → Except Fault α × FileTree} {a : α} :
    from? session (changeFiles change : Run K V S α) = (.ok a, after) ↔
      (change session.files).1 = .ok a ∧
        { session with files := (change session.files).2 } = after := by
  rw [from?_changeFiles, Prod.mk.injEq]

/-- A fault that is caught goes to its handler in the session that the step left. -/
theorem from?_tryCatch (step : Run K V S α) (handler : Fault → Run K V S α) :
    from? session (tryCatch step handler) =
      match from? session step with
      | (.ok a, after) => (.ok a, after)
      | (.error fault, after) => from? after (handler fault) := by
  simp only [from?, ExceptT.run_tryCatch, StateT.run_bind]
  rcases step.run.run session with ⟨_ | a, after⟩ <;> rfl

/-- A step whose faults are thrown on in another form succeeds when the step does. -/
theorem from?_tryCatch_throw_eq_ok {step : Run K V S α} {change : Fault → Fault} {a : α} :
    from? session (tryCatch step fun fault => throw (change fault)) = (.ok a, after) ↔
      from? session step = (.ok a, after) := by
  rw [from?_tryCatch]
  rcases from? session step with ⟨_ | b, between⟩
  · constructor <;> intro h <;> cases h
  · exact Iff.rfl

/-- A step whose faults are thrown on in another form fails when the step does. -/
theorem from?_tryCatch_throw_eq_error {step : Run K V S α} {change : Fault → Fault}
    {fault : Fault} :
    from? session (tryCatch step fun fault => throw (change fault)) = (.error fault, after) ↔
      ∃ cause, from? session step = (.error cause, after) ∧ fault = change cause := by
  rw [from?_tryCatch]
  rcases from? session step with ⟨cause | b, between⟩
  · constructor
    · intro h
      cases h
      exact ⟨cause, rfl, rfl⟩
    · rintro ⟨_, h, rfl⟩
      cases h
      rfl
  · constructor
    · intro h
      cases h
    · rintro ⟨_, h, -⟩
      cases h

/-- Whether a step succeeds and what comes of it passes a check. -/
def succeeds (session : Session K V S) (step : Run K V S α) (check : α → Session K V S → Bool) :
    Bool :=
  match from? session step with
  | (.ok a, after) => check a after
  | (.error _, _) => false

theorem exists_of_succeeds {step : Run K V S α} {check : α → Session K V S → Bool}
    (h : succeeds session step check) :
    ∃ a after, from? session step = (.ok a, after) ∧ check a after := by
  unfold succeeds at h
  split at h
  next a after heq => exact ⟨a, after, heq, h⟩
  next => cases h

/-- Whether a step fails and its fault and what is left behind pass a check. -/
def breaks (session : Session K V S) (step : Run K V S α) (check : Fault → Session K V S → Bool) :
    Bool :=
  match from? session step with
  | (.ok _, _) => false
  | (.error fault, after) => check fault after

theorem exists_of_breaks {step : Run K V S α} {check : Fault → Session K V S → Bool}
    (h : breaks session step check) :
    ∃ fault after, from? session step = (.error fault, after) ∧ check fault after := by
  unfold breaks at h
  split at h
  next => cases h
  next fault after heq => exact ⟨fault, after, heq, h⟩

/-- Whatever a step gives, it moves the session along a relation. -/
def Keeps (R : Session K V S → Session K V S → Prop) (step : Run K V S α) : Prop :=
  ∀ session, R session (from? session step).2

namespace Keeps

variable {R : Session K V S → Session K V S → Prop} {step : Run K V S α}

theorem of_eq_ok (h : Keeps R step) {a : α} (hstep : from? session step = (.ok a, after)) :
    R session after := by
  have hmove := h session
  rwa [hstep] at hmove

theorem pure [Std.Refl R] (a : α) : Keeps R (Pure.pure a : Run K V S α) :=
  fun session => Std.Refl.refl session

theorem bind_at [IsTrans (Session K V S) R] {next : α → Run K V S β}
    (hstep : R session (from? session step).2) (hnext : ∀ a, Keeps R (next a)) :
    R session (from? session (step >>= next)).2 := by
  rw [from?_bind]
  generalize from? session step = result at hstep ⊢
  rcases result with ⟨_ | a, between⟩
  · exact hstep
  · exact IsTrans.trans _ _ _ hstep (hnext a between)

theorem bind [IsTrans (Session K V S) R] {next : α → Run K V S β} (hstep : Keeps R step)
    (hnext : ∀ a, Keeps R (next a)) : Keeps R (step >>= next) :=
  fun session => bind_at (hstep session) hnext

/-- A step that begins by looking at the session. -/
theorem get_bind {next : Session K V S → Run K V S β}
    (hnext : ∀ session, R session (from? session (next session)).2) :
    Keeps R (MonadState.get >>= next) :=
  hnext

theorem record (hrecord : ∀ session record, R session (session.addRecord record)) (level : Level)
    (text : String) : Keeps R (Run.record level text) :=
  fun session => hrecord session ⟨level, text⟩

theorem ite {condition : Prop} [Decidable condition] {other : Run K V S α}
    (hstep : condition → Keeps R step) (hother : ¬ condition → Keeps R other) :
    Keeps R (if condition then step else other) := by
  split
  next h => exact hstep h
  next h => exact hother h

end Keeps

end Run

end MapAlgebra
