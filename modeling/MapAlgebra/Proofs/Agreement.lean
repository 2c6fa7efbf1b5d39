import MapAlgebra.Proofs.Precedence
import MapAlgebra.Proofs.Stops

/-!
# Two evaluations side by side

Two expressions of one shape are evaluated from two sessions, maybe under two settings. The
evaluations go the same way through the shape, so they give the same and leave related sessions as
long as their tokens, merges and calls do.
-/

namespace MapAlgebra

namespace Fault

/-- What a caller can tell faults apart by; of a quiet end the log keeps the reason. -/
inductive Kind
  | syntactic
  | depth
  | resolution
  | argument
  | missingFile
  | format
  | truncated
  | overflow
  | zeroDivision
  | notFound
  | notDirectory
  | isDirectory
  | alreadyExists
  | notText
  | index
  | attribute
  | unbound
  | validation
  | value
  | quietStop (reason : String)
  | line
  deriving DecidableEq, Repr

def kind : Fault → Kind
  | number .infinite | number .tooLarge => .overflow
  | number .divisionByZero => .zeroDivision
  | file .notFound | scriptMissing _ => .notFound
  | file .notDirectory => .notDirectory
  | file .isDirectory => .isDirectory
  | file .alreadyExists => .alreadyExists
  | file .notText => .notText
  | expression (.tooDeep _) => .depth
  | expression (.unknownToken _) | expression (.unknownFunction _) => .resolution
  | expression (.gridExpected ..) | expression (.constantExpected ..) => .argument
  | expression (.invalidCellSize ..) | expression (.invalidMethod ..) => .argument
  | expression _ | script _ | scriptSuffix _ => .syntactic
  | grid .outsideCells => .index
  | grid .nothingLeft => .attribute
  | format .truncated => .truncated
  | format _ => .format
  | missingFile _ => .missingFile
  | unbound _ => .unbound
  | quietStop reason => .quietStop reason
  | line .. => .line
  | fault => if fault.isRejection then .validation else .value

theorem kind_eq_quietStop_iff {fault : Fault} {reason : String} :
    fault.kind = .quietStop reason ↔ fault = .quietStop reason := by
  constructor
  · intro h
    unfold kind at h
    split at h
    all_goals first | cases h | (split at h <;> cases h)
    rfl
  · rintro rfl
    rfl

end Fault

variable {K V S α β : Type}

/-- Without a file for log records, a record only goes to the log. -/
theorem Session.addRecord_of_logFile_eq_none {session : Session K V S}
    (h : session.logFile = none) (record : Record) :
    session.addRecord record = { session with log := session.log ++ [record] } := by
  unfold addRecord
  rw [h]

/-- One thing on both sides, with a property. -/
abbrev Shared (p : α → Prop) (a b : α) : Prop :=
  a = b ∧ p a

/-- Outcomes that match: results that are related, or faults of one kind. -/
inductive Matching (Q : α → α → Prop) : Except Fault α → Except Fault α → Prop
  | ok {a b : α} (h : Q a b) : Matching Q (.ok a) (.ok b)
  | error {f g : Fault} (h : f.kind = g.kind) : Matching Q (.error f) (.error g)

namespace Matching

variable {Q : α → α → Prop} {Q' : β → β → Prop} {x y : Except Fault α}

/-- An outcome matches itself when its result is related to itself. -/
theorem self (h : Gives (fun a => Q a a) x) : Matching Q x x := by
  cases x with
  | error fault => exact .error rfl
  | ok a => exact .ok (h a rfl)

theorem of_eq (h : x = y) : Matching Eq x y :=
  h ▸ self fun _ _ => rfl

theorem shared {p : α → Prop} (h : Gives p x) : Matching (Shared p) x x :=
  .self (h.mono fun _ ha => ⟨rfl, ha⟩)

theorem bind {next next' : α → Except Fault β} (h : Matching Q x y)
    (hnext : ∀ a b, Q a b → Matching Q' (next a) (next' b)) :
    Matching Q' (x >>= next) (y >>= next') := by
  cases h with
  | ok h => exact hnext _ _ h
  | error h => exact .error h

theorem mono {P : α → α → Prop} (h : Matching Q x y) (hP : ∀ a b, Q a b → P a b) :
    Matching P x y := by
  cases h with
  | ok h => exact .ok (hP _ _ h)
  | error h => exact .error h

/-- The related results are those of the two outcomes. -/
theorem and_eq (h : Matching Q x y) : Matching (fun a b => Q a b ∧ x = .ok a ∧ y = .ok b) x y := by
  cases h with
  | ok h => exact .ok ⟨h, rfl, rfl⟩
  | error h => exact .error h

end Matching

namespace Traced

/-- Computations that make the same records and have outcomes that match. -/
protected def Matching (Q : α → α → Prop) (x y : Traced α) : Prop :=
  ∀ records, MapAlgebra.Matching Q (x.run.run records).1 (y.run.run records).1 ∧
    (x.run.run records).2 = (y.run.run records).2

namespace Matching

variable {Q : α → α → Prop} {Q' : β → β → Prop} {x y : Traced α}

theorem self (h : Traced.Gives (fun a => Q a a) x) : Traced.Matching Q x x :=
  fun records => ⟨.self (h records), rfl⟩

theorem of_eq (h : x = y) : Traced.Matching Eq x y :=
  h ▸ self fun _ _ _ => rfl

theorem shared {p : α → Prop} (h : Traced.Gives p x) : Traced.Matching (Shared p) x x :=
  self (h.mono fun _ ha => ⟨rfl, ha⟩)

theorem pure {a b : α} (h : Q a b) : Traced.Matching Q (Pure.pure a) (Pure.pure b) :=
  fun _ => ⟨.ok h, rfl⟩

theorem throw {f g : Fault} (h : f.kind = g.kind) :
    Traced.Matching Q (MonadExcept.throw f) (MonadExcept.throw g) :=
  fun _ => ⟨.error h, rfl⟩

theorem lift {outcome outcome' : Except Fault α} (h : MapAlgebra.Matching Q outcome outcome') :
    Traced.Matching Q (liftExcept outcome) (liftExcept outcome') := by
  cases h with
  | ok h => exact pure h
  | error h => exact throw h

theorem bind {next next' : α → Traced β} (h : Traced.Matching Q x y)
    (hnext : ∀ a b, Q a b → Traced.Matching Q' (next a) (next' b)) :
    Traced.Matching Q' (x >>= next) (y >>= next') := by
  intro records
  obtain ⟨houtcome, hrecords⟩ := h records
  rw [ExceptT.run_bind, StateT.run_bind, ExceptT.run_bind, StateT.run_bind]
  generalize x.run.run records = left, y.run.run records = right at houtcome hrecords ⊢
  obtain ⟨outcome, later⟩ := left
  obtain ⟨outcome', later'⟩ := right
  dsimp only at houtcome hrecords
  subst hrecords
  cases houtcome with
  | ok h => exact hnext _ _ h later
  | error h => exact ⟨.error h, rfl⟩

theorem throw_bind {f g : Fault} {next next' : α → Traced β} (h : f.kind = g.kind) :
    Traced.Matching Q' (MonadExcept.throw f >>= next) (MonadExcept.throw g >>= next') :=
  .bind (Q := fun _ _ => False) (.throw h) fun _ _ hfalse => hfalse.elim

theorem mono {P : α → α → Prop} (h : Traced.Matching Q x y) (hP : ∀ a b, Q a b → P a b) :
    Traced.Matching P x y :=
  fun records => ⟨(h records).1.mono hP, (h records).2⟩

/-- The same record is made before computations that match. -/
theorem record {level : Level} {text : String} {next next' : Traced β}
    (h : Traced.Matching Q' next next') :
    Traced.Matching Q' (Traced.record level text >>= fun _ => next)
      (Traced.record level text >>= fun _ => next') :=
  bind (Q := fun _ _ => True) (self fun _ _ _ => trivial) fun _ _ _ => h

theorem ite {condition : Prop} [Decidable condition] {x' y' : Traced α}
    (h : condition → Traced.Matching Q x y) (h' : ¬ condition → Traced.Matching Q x' y') :
    Traced.Matching Q (if condition then x else x') (if condition then y else y') := by
  split
  next hc => exact h hc
  next hc => exact h' hc

theorem mapM {ι : Type} {P : ι → ι → Prop} {items items' : List ι} {f f' : ι → Traced α}
    (h : List.Forall₂ P items items') (hf : ∀ i j, P i j → Traced.Matching Q (f i) (f' j)) :
    Traced.Matching (List.Forall₂ Q) (items.mapM f) (items'.mapM f') := by
  induction h with
  | nil => exact pure .nil
  | cons h _ ih =>
      rw [List.mapM_cons, List.mapM_cons]
      exact bind (hf _ _ h) fun _ _ h => bind ih fun _ _ hrest => pure (.cons h hrest)

end Matching

end Traced

/-- Items that are related keep their numbers. -/
theorem forall₂_zipIdx {Q : α → α → Prop} {items items' : List α} (h : List.Forall₂ Q items items')
    (start : Nat) :
    List.Forall₂ (fun x y => Q x.1 y.1 ∧ y.2 = x.2) (items.zipIdx start)
      (items'.zipIdx start) := by
  induction h generalizing start with
  | nil => exact .nil
  | cons h _ ih => exact .cons ⟨h, rfl⟩ (ih (start + 1))

namespace Run

variable {R : Session K V S → Session K V S → Prop} {heed : Fault → Prop} {Q : α → α → Prop}
  {s t : Session K V S}

/-- Two outcomes that go together. Where no fault is one to heed, they give related results or fail
by faults of one kind; the sessions they leave are related. -/
inductive Together (R : Session K V S → Session K V S → Prop) (heed : Fault → Prop)
    (Q : α → α → Prop) : Except Fault α × Session K V S → Except Fault α × Session K V S → Prop
  | gives {a b : α} {s t : Session K V S} (hab : Q a b) (h : R s t) :
      Together R heed Q (.ok a, s) (.ok b, t)
  | fails {f g : Fault} {s t : Session K V S} (h : heed f → heed g → f.kind = g.kind ∧ R s t) :
      Together R heed Q (.error f, s) (.error g, t)
  | first {f : Fault} {b : α} {s t : Session K V S} (h : ¬ heed f) :
      Together R heed Q (.error f, s) (.ok b, t)
  | second {a : α} {g : Fault} {s t : Session K V S} (h : ¬ heed g) :
      Together R heed Q (.ok a, s) (.error g, t)

/-- A fault that is not heeded goes with whatever comes of the other side. -/
theorem Together.of_first {f : Fault} (h : ¬ heed f) (s : Session K V S)
    (other : Except Fault α × Session K V S) : Together R heed Q (.error f, s) other := by
  obtain ⟨g | b, t⟩ := other
  · exact .fails fun hf _ => absurd hf h
  · exact .first h

theorem Together.of_second {g : Fault} (h : ¬ heed g) (t : Session K V S)
    (other : Except Fault α × Session K V S) : Together R heed Q other (.error g, t) := by
  obtain ⟨f | a, s⟩ := other
  · exact .fails fun _ hg => absurd hg h
  · exact .second h

/-- Two steps agree from two sessions. -/
def Agree (R : Session K V S → Session K V S → Prop) (heed : Fault → Prop) (Q : α → α → Prop)
    (s t : Session K V S) (step step' : Run K V S α) : Prop :=
  Together R heed Q (from? s step) (from? t step')

namespace Agree

theorem pure {a b : α} (hst : R s t) (hab : Q a b) :
    Agree R heed Q s t (Pure.pure a) (Pure.pure b) :=
  .gives hab hst

theorem throw {f g : Fault} (hst : R s t) (hkind : f.kind = g.kind) :
    Agree R heed Q s t (MonadExcept.throw f) (MonadExcept.throw g) :=
  .fails fun _ _ => ⟨hkind, hst⟩

theorem lift {outcome outcome' : Except Fault α} (hst : R s t) (h : Matching Q outcome outcome') :
    Agree R heed Q s t (liftExcept outcome) (liftExcept outcome') := by
  cases h with
  | error hkind => exact throw hst hkind
  | ok hab => exact pure hst hab

/-- Two steps that agree more closely, and what follows wherever they lead. -/
theorem bind_within {R' : Session K V S → Session K V S → Prop} {Q' : β → β → Prop}
    {step step' : Run K V S α} {next next' : α → Run K V S β}
    (hle : ∀ {s t}, R' s t → R s t) (hstep : Agree R' heed Q s t step step')
    (hnext : ∀ a b s' t', from? s step = (.ok a, s') → from? t step' = (.ok b, t') → Q a b →
      R' s' t' → Agree R heed Q' s' t' (next a) (next' b)) :
    Agree R heed Q' s t (step >>= next) (step' >>= next') := by
  unfold Agree at hstep ⊢
  rw [from?_bind, from?_bind]
  generalize hleft : from? s step = left, hright : from? t step' = right at hstep ⊢
  cases hstep with
  | gives hab h => exact hnext _ _ _ _ hleft hright hab h
  | fails h => exact .fails fun hf hg => (h hf hg).imp_right hle
  | first h => exact .of_first h _ _
  | second h => exact .of_second h _ _

theorem bind_of_eq_ok {Q' : β → β → Prop} {step step' : Run K V S α} {next next' : α → Run K V S β}
    (hstep : Agree R heed Q s t step step')
    (hnext : ∀ a b s' t', from? s step = (.ok a, s') → from? t step' = (.ok b, t') → Q a b →
      R s' t' → Agree R heed Q' s' t' (next a) (next' b)) :
    Agree R heed Q' s t (step >>= next) (step' >>= next') :=
  .bind_within id hstep hnext

theorem bind {Q' : β → β → Prop} {step step' : Run K V S α} {next next' : α → Run K V S β}
    (hstep : Agree R heed Q s t step step')
    (hnext : ∀ a b s t, Q a b → R s t → Agree R heed Q' s t (next a) (next' b)) :
    Agree R heed Q' s t (step >>= next) (step' >>= next') :=
  hstep.bind_of_eq_ok fun a b s' t' _ _ => hnext a b s' t'

/-- Steps that agree closely agree. -/
theorem within {R' : Session K V S → Session K V S → Prop} {step step' : Run K V S α}
    (hle : ∀ {s t}, R' s t → R s t) (h : Agree R' heed Q s t step step') :
    Agree R heed Q s t step step' := by
  unfold Agree at h ⊢
  generalize from? s step = left, from? t step' = right at h ⊢
  cases h with
  | gives hab h => exact .gives hab (hle h)
  | fails h => exact .fails fun hf hg => (h hf hg).imp_right hle
  | first h => exact .first h
  | second h => exact .second h

theorem throw_bind {Q' : β → β → Prop} {f g : Fault} {next next' : α → Run K V S β} (hst : R s t)
    (hkind : f.kind = g.kind) :
    Agree R heed Q' s t (MonadExcept.throw f >>= next) (MonadExcept.throw g >>= next') :=
  .bind (Q := fun _ _ => False) (.throw hst hkind) fun _ _ _ _ hfalse => hfalse.elim

theorem mono {Q' : α → α → Prop} {step step' : Run K V S α} (h : Agree R heed Q s t step step')
    (hQ : ∀ a b, Q a b → Q' a b) : Agree R heed Q' s t step step' := by
  unfold Agree at h ⊢
  generalize from? s step = left, from? t step' = right at h ⊢
  cases h with
  | gives hab h => exact .gives (hQ _ _ hab) h
  | fails h => exact .fails h
  | first h => exact .first h
  | second h => exact .second h

theorem ite {condition : Prop} [Decidable condition] {step step' other other' : Run K V S α}
    (hstep : condition → Agree R heed Q s t step step')
    (hother : ¬ condition → Agree R heed Q s t other other') :
    Agree R heed Q s t (if condition then step else other)
      (if condition then step' else other') := by
  split
  next h => exact hstep h
  next h => exact hother h

/-- Two steps that begin by looking at their sessions. -/
theorem get_bind {next next' : Session K V S → Run K V S α}
    (h : Agree R heed Q s t (next s) (next' t)) :
    Agree R heed Q s t (MonadState.get >>= next) (MonadState.get >>= next') :=
  h

theorem set {next next' : Session K V S} (h : R next next') :
    Agree R heed (fun _ _ => True) s t (MonadState.set next) (MonadState.set next') :=
  .gives trivial h

/-- Computations that match make the same records in both sessions. -/
theorem traced {computation computation' : Traced α} (hst : R s t)
    (hrecord : ∀ {s t} (record : Record), R s t → R (s.addRecord record) (t.addRecord record))
    (h : Traced.Matching Q computation computation') :
    Agree R heed Q s t (Run.traced computation) (Run.traced computation') := by
  have hrecords (records : List Record) : ∀ {s t : Session K V S}, R s t →
      R (records.foldl Session.addRecord s) (records.foldl Session.addRecord t) := by
    induction records with
    | nil => exact fun hst => hst
    | cons record records ih => exact fun hst => ih (hrecord record hst)
  obtain ⟨houtcome, hsame⟩ := h []
  unfold Agree
  rw [from?_traced, from?_traced]
  unfold Traced.outcome
  rw [← hsame]
  generalize (computation.run.run []).1 = outcome, (computation'.run.run []).1 = outcome'
    at houtcome ⊢
  cases houtcome with
  | error hkind => exact .fails fun _ _ => ⟨hkind, hrecords _ hst⟩
  | ok hab => exact .gives hab (hrecords _ hst)

theorem record {level level' : Level} {text text' : String}
    (hst : R (s.addRecord ⟨level, text⟩) (t.addRecord ⟨level', text'⟩)) :
    Agree R heed (fun _ _ => True) s t (Run.record level text) (Run.record level' text') :=
  .gives trivial hst

theorem changeFiles {change change' : FileTree → Except Fault α × FileTree}
    (h : Matching Q (change s.files).1 (change' t.files).1)
    (hst : R { s with files := (change s.files).2 } { t with files := (change' t.files).2 }) :
    Agree R heed Q s t (Run.changeFiles change) (Run.changeFiles change') := by
  unfold Agree
  rw [from?_changeFiles, from?_changeFiles]
  generalize (change s.files).1 = outcome, (change' t.files).1 = outcome' at h ⊢
  cases h with
  | ok hab => exact .gives hab hst
  | error hkind => exact .fails fun _ _ => ⟨hkind, hst⟩

/-- Faults are thrown on in another form, which tells as much of their kind. -/
theorem tryCatch {change : Fault → Fault} {step step' : Run K V S α}
    (hstep : Agree R heed Q s t step step') (hheed : ∀ f, heed (change f) → heed f)
    (hkind : ∀ f g : Fault, f.kind = g.kind → (change f).kind = (change g).kind) :
    Agree R heed Q s t (MonadExcept.tryCatch step fun fault => MonadExcept.throw (change fault))
      (MonadExcept.tryCatch step' fun fault => MonadExcept.throw (change fault)) := by
  unfold Agree at hstep ⊢
  rw [from?_tryCatch, from?_tryCatch]
  generalize from? s step = left, from? t step' = right at hstep ⊢
  cases hstep with
  | gives hab h => exact .gives hab h
  | fails h =>
      exact .fails fun hf hg =>
        ⟨hkind _ _ (h (hheed _ hf) (hheed _ hg)).1, (h (hheed _ hf) (hheed _ hg)).2⟩
  | first h => exact .first fun hf => h (hheed _ hf)
  | second h => exact .second fun hg => h (hheed _ hg)

/-- Where every fault is heeded, one side gives a result just when the other one does. -/
theorem outcomes {step step' : Run K V S α} (h : Agree R (fun _ => True) Q s t step step') :
    (∀ a after, from? s step = (.ok a, after) →
      ∃ b after', from? t step' = (.ok b, after') ∧ Q a b ∧ R after after') ∧
    ∀ f after, from? s step = (.error f, after) →
      ∃ g after', from? t step' = (.error g, after') ∧ f.kind = g.kind ∧ R after after' := by
  unfold Agree at h
  generalize from? s step = left, from? t step' = right at h ⊢
  cases h with
  | gives hab h =>
      refine ⟨fun a after heq => ?_, nofun⟩
      cases heq
      exact ⟨_, _, rfl, hab, h⟩
  | fails h =>
      refine ⟨nofun, fun f after heq => ?_⟩
      cases heq
      exact ⟨_, _, rfl, h trivial trivial⟩
  | first h => exact absurd trivial h
  | second h => exact absurd trivial h

/-- The sessions take the same number. -/
theorem nextId (hcounter : t.counter = s.counter)
    (hst : R { s with counter := s.counter + 1 } { t with counter := t.counter + 1 }) :
    Agree R heed (Shared fun id => id = expressionId (s.counter + 1)) s t
      Run.nextId Run.nextId := by
  unfold Agree
  rw [from?_nextId, from?_nextId, hcounter]
  rw [hcounter] at hst
  exact .gives ⟨rfl, rfl⟩ hst

end Agree

end Run

namespace Expression

mutual

/-- Chains of one shape, with related tokens at the same places. -/
inductive Chain.Like (T : Text → Text → Prop) : Chain → Chain → Prop
  | last {a b : Term} (h : Term.Like T a b) : Chain.Like T (.last a) (.last b)
  | join {a b : Term} {op : Operator} {rest rest' : Chain} (h : Term.Like T a b)
      (hrest : Chain.Like T rest rest') : Chain.Like T (.join a op rest) (.join b op rest')
  | broken {a b : Term} {wanted wanted' : Text} {left left' : Nat} (h : Term.Like T a b) :
      Chain.Like T (.broken a wanted left) (.broken b wanted' left')

inductive Term.Like (T : Text → Text → Prop) : Term → Term → Prop
  | token {a b : Text} (h : T a b) : Term.Like T (.token a) (.token b)
  | missing {left left' : Nat} : Term.Like T (.missing left) (.missing left')
  | group {negated : Bool} {body body' : Chain} (h : Chain.Like T body body') :
      Term.Like T (.group negated body) (.group negated body')
  | call {negated : Bool} {name name' : Text} {arguments arguments' : Arguments}
      (hname : Function.ofName? name = Function.ofName? name')
      (h : Arguments.Like T arguments arguments') :
      Term.Like T (.call negated name arguments) (.call negated name' arguments')

inductive Arguments.Like (T : Text → Text → Prop) : Arguments → Arguments → Prop
  | none : Arguments.Like T .none .none
  | more {first first' : Chain} {rest rest' : Arguments} (h : Chain.Like T first first')
      (hrest : Arguments.Like T rest rest') :
      Arguments.Like T (.more first rest) (.more first' rest')

end

mutual

/-- The tokens of a chain from left to right. -/
def Chain.tokens : Chain → List Text
  | .last term => term.tokens
  | .join term _ rest => term.tokens ++ rest.tokens
  | .broken term _ _ => term.tokens

def Term.tokens : Term → List Text
  | .token text => [text]
  | .missing _ => []
  | .group _ body => body.tokens
  | .call _ _ arguments => arguments.tokens

def Arguments.tokens : Arguments → List Text
  | .none => []
  | .more first rest => first.tokens ++ rest.tokens

end

mutual

/-- What holds of all tokens of a chain holds of the tokens at the same places. -/
theorem Chain.Like.of_tokens {T : Text → Text → Prop} {p : Text → Prop} :
    ∀ {chain chain' : Chain}, chain.Like T chain' → (∀ token ∈ chain.tokens, p token) →
      chain.Like (fun a b => T a b ∧ p a) chain'
  | _, _, .last h, hp => .last (h.of_tokens hp)
  | _, _, .join h hrest, hp =>
      .join (h.of_tokens fun token htoken => hp token (List.mem_append_left _ htoken))
        (hrest.of_tokens fun token htoken => hp token (List.mem_append_right _ htoken))
  | _, _, .broken h, hp => .broken (h.of_tokens hp)

theorem Term.Like.of_tokens {T : Text → Text → Prop} {p : Text → Prop} :
    ∀ {term term' : Term}, term.Like T term' → (∀ token ∈ term.tokens, p token) →
      term.Like (fun a b => T a b ∧ p a) term'
  | _, _, .token h, hp => .token ⟨h, hp _ (List.mem_singleton_self _)⟩
  | _, _, .missing, _ => .missing
  | _, _, .group h, hp => .group (h.of_tokens hp)
  | _, _, .call hname h, hp => .call hname (h.of_tokens hp)

theorem Arguments.Like.of_tokens {T : Text → Text → Prop} {p : Text → Prop} :
    ∀ {arguments arguments' : Arguments}, arguments.Like T arguments' →
      (∀ token ∈ arguments.tokens, p token) →
        arguments.Like (fun a b => T a b ∧ p a) arguments'
  | _, _, .none, _ => .none
  | _, _, .more h hrest, hp =>
      .more (h.of_tokens fun token htoken => hp token (List.mem_append_left _ htoken))
        (hrest.of_tokens fun token htoken => hp token (List.mem_append_right _ htoken))

end

mutual

/-- A chain is like itself when each of its tokens is related to itself. -/
theorem Chain.like_self {T : Text → Text → Prop} :
    ∀ {chain : Chain}, (∀ token ∈ chain.tokens, T token token) → chain.Like T chain
  | .last _, h => .last (Term.like_self h)
  | .join _ _ _, h =>
      .join (Term.like_self fun token htoken => h token (List.mem_append_left _ htoken))
        (Chain.like_self fun token htoken => h token (List.mem_append_right _ htoken))
  | .broken _ _ _, h => .broken (Term.like_self h)

theorem Term.like_self {T : Text → Text → Prop} :
    ∀ {term : Term}, (∀ token ∈ term.tokens, T token token) → term.Like T term
  | .token _, h => .token (h _ (List.mem_singleton_self _))
  | .missing _, _ => .missing
  | .group _ _, h => .group (Chain.like_self h)
  | .call _ _ _, h => .call rfl (Arguments.like_self h)

theorem Arguments.like_self {T : Text → Text → Prop} :
    ∀ {arguments : Arguments}, (∀ token ∈ arguments.tokens, T token token) →
      arguments.Like T arguments
  | .none, _ => .none
  | .more _ _, h =>
      .more (Chain.like_self fun token htoken => h token (List.mem_append_left _ htoken))
        (Arguments.like_self fun token htoken => h token (List.mem_append_right _ htoken))

end

/-- Trees of one shape, with related operands at the same places. -/
inductive Merging.Related (Q : α → α → Prop) : Merging α → Merging α → Prop
  | operand {a b : α} (h : Q a b) : Related Q (.operand a) (.operand b)
  | merge {left left' right right' : Merging α} {op : Operator} (hleft : Related Q left left')
      (hright : Related Q right right') : Related Q (.merge left op right) (.merge left' op right')

/-- Operators with related operands behind them. -/
def Joined (Q : α → α → Prop) (x y : Operator × α) : Prop :=
  x.1 = y.1 ∧ Q x.2 y.2

/-- Rows with the same operators are divided at the same place. -/
theorem weakest?_joined {Q : α → α → Prop} {row row' : List (Operator × α)}
    (h : List.Forall₂ (Joined Q) row row') :
    Option.Rel (fun a b => List.Forall₂ (Joined Q) a.1 b.1 ∧ Joined Q a.2.1 b.2.1 ∧
      List.Forall₂ (Joined Q) a.2.2 b.2.2) (weakest? row) (weakest? row') := by
  induction h with
  | nil => exact .none
  | @cons item item' rest rest' hitem hrest ih =>
      rw [weakest?, weakest?]
      generalize weakest? rest = found, weakest? rest' = found' at ih ⊢
      cases ih with
      | none => exact .some ⟨.nil, hitem, .nil⟩
      | @some a b h =>
          obtain ⟨before, least, after⟩ := a
          obtain ⟨before', least', after'⟩ := b
          obtain ⟨hbefore, hleast, hafter⟩ := h
          dsimp only at hbefore hleast hafter ⊢
          rw [hleast.1, hitem.1]
          split
          next => exact .some ⟨.cons hitem hbefore, hleast, hafter⟩
          next => exact .some ⟨.nil, hitem, hrest⟩

/-- Rows with the same operators have trees of one shape. -/
theorem related_bySplitting {Q : α → α → Prop} {a b : α} {row row' : List (Operator × α)}
    (hab : Q a b) (h : List.Forall₂ (Joined Q) row row') :
    (bySplitting a row).Related Q (bySplitting b row') := by
  induction hlength : row.length using Nat.strongRecOn generalizing a b row row' with
  | ind n ih =>
      have hdivided := weakest?_joined h
      cases hweakest : weakest? row with
      | none =>
          obtain rfl := weakest?_eq_none hweakest
          cases h
          rw [bySplitting_nil, bySplitting_nil]
          exact .operand hab
      | some found =>
          rw [hweakest] at hdivided
          generalize hweakest' : weakest? row' = found' at hdivided
          cases hdivided with
          | @some _ found' hfound =>
              obtain ⟨before, ⟨op, c⟩, after⟩ := found
              obtain ⟨before', ⟨op', d⟩, after'⟩ := found'
              obtain ⟨hbefore, ⟨hop, hcd⟩, hafter⟩ := hfound
              dsimp only at hop hcd
              subst hop
              rw [bySplitting_of_weakest? hweakest, bySplitting_of_weakest? hweakest']
              have hrow := congrArg List.length (eq_of_weakest? hweakest)
              rw [List.length_append, List.length_cons] at hrow
              exact .merge (ih before.length (by omega) hab hbefore rfl)
                (ih after.length (by omega) hcd hafter rfl)

variable [Coordinate K] [Number V] [Cell S V] [Conversion K V]

/-- Evaluations that agree on tokens, on merges and on calls. -/
structure Scope.Agrees (R : Session K V S → Session K V S → Prop) (heed : Fault → Prop)
    (Q : Part K V S → Part K V S → Prop) (T : Text → Text → Prop) (scope scope' : Scope K V) :
    Prop where
  depth : scope'.settings.maxDepth = scope.settings.maxDepth
  number : ∀ {s t : Session K V S}, R s t →
    Run.Agree R heed (Shared fun id => id = expressionId (s.counter + 1)) s t
      Run.nextId Run.nextId
  token : ∀ {s t : Session K V S} {a b : Text}, R s t → T a b →
    Run.Agree R heed Q s t (scope.resolveToken a) (scope'.resolveToken b)
  merge : ∀ {s t : Session K V S} {left left' right right' : Link K V S} (op : Operator), R s t →
    Q left.toPart left'.toPart → Q right.toPart right'.toPart →
      Run.Agree R heed (fun link link' => Q link.toPart link'.toPart) s t
        (scope.mergeLinks left op right) (scope'.mergeLinks left' op right')
  call : ∀ {s t : Session K V S} {parts parts' : List (Part K V S)} (function : Function),
    R s t → List.Forall₂ Q parts parts' →
      Run.Agree R heed Q s t (scope.call function parts) (scope'.call function parts')
  negate : ∀ {part part' : Part K V S}, Q part part' →
    Matching (fun value value' => Q { part with value, token := '-' :: part.token }
      { part' with value := value', token := '-' :: part'.token }) part.value.negate
        part'.value.negate

/-- Two links with related parts and the same operator behind them. -/
def LinkMatches (Q : Part K V S → Part K V S → Prop) (link link' : Link K V S) : Prop :=
  Q link.toPart link'.toPart ∧ link'.action = link.action

/-- The links of two chains are rows of parts that are related in pairs. -/
structure LinksMatch (Q : Part K V S → Part K V S → Prop)
    (links links' : Link K V S × List (Link K V S)) : Prop where
  row : IsRow ((links.1 :: links.2).map Link.placed)
  row' : IsRow ((links'.1 :: links'.2).map Link.placed)
  first : LinkMatches Q links.1 links'.1
  rest : List.Forall₂ (LinkMatches Q) links.2 links'.2

omit [Coordinate K] [Number V] [Cell S V] [Conversion K V] in
theorem forall₂_joins {Q : Part K V S → Part K V S → Prop} {links links' : List (Link K V S)}
    (h : List.Forall₂ (LinkMatches Q) links links') (action : Option Operator) :
    List.Forall₂ (Joined fun link link' => Q link.toPart link'.toPart)
      (joins action (links.map Link.placed)) (joins action (links'.map Link.placed)) := by
  induction h generalizing action with
  | nil => cases action <;> exact .nil
  | @cons link link' links links' hlink _ ih =>
      cases action with
      | none => exact .nil
      | some op =>
          refine .cons ⟨rfl, hlink.1⟩ ?_
          show List.Forall₂ _ (joins link.action _) (joins link'.action _)
          rw [hlink.2]
          exact ih link.action

omit [Coordinate K] [Number V] [Cell S V] [Conversion K V] in
theorem kind_breakFault (scope : Scope K V) (wanted : Text) (left : Nat) :
    (Fault.expression (scope.breakFault wanted left)).kind = .syntactic := by
  unfold Scope.breakFault
  dsimp only
  split <;> rfl

namespace Scope

variable {R : Session K V S → Session K V S → Prop} {heed : Fault → Prop}
  {Q : Part K V S → Part K V S → Prop} {T : Text → Text → Prop} {scope scope' : Scope K V}
  {s t : Session K V S}

section Numbers

-- `P` relates the sessions from where a number is taken until its result is recorded
variable {P : Nat → Session K V S → Session K V S → Prop}
  (hle : ∀ {number : Nat} {s t : Session K V S}, P number s t → R s t)
  (hnumber : ∀ {s t : Session K V S}, R s t →
    Run.Agree (P (s.counter + 1)) heed (Shared fun id => id = expressionId (s.counter + 1)) s t
      Run.nextId Run.nextId)
include hle hnumber

omit [Conversion K V] in
/-- Merges agree where the combinations match and their results are recorded alike. -/
theorem agree_mergeLinks {left left' right right' : Link K V S} {op : Operator} (hst : R s t)
    (hrecord : ∀ {number s t} (record : Record), P number s t →
      P number (s.addRecord record) (t.addRecord record))
    (hcombine : Traced.Matching
      (fun value value' => ∀ number, Q ⟨value, .complex, expressionId number⟩
        ⟨value', .complex, expressionId number⟩)
      (scope.combine left.toPart op right.toPart) (scope'.combine left'.toPart op right'.toPart))
    (hemit : ∀ {s t : Session K V S} (number : Nat) (value value' : Operand K V S), P number s t →
      Q ⟨value, .complex, expressionId number⟩ ⟨value', .complex, expressionId number⟩ →
      Run.Agree R heed (fun _ _ => True) s t
        (emit scope.settings (expressionId number)
          (scope.prepared.expand (left.token ++ op.sign ++ right.token)) value)
        (emit scope'.settings (expressionId number)
          (scope'.prepared.expand (left'.token ++ op.sign ++ right'.token)) value')) :
    Run.Agree R heed (fun link link' => Q link.toPart link'.toPart) s t
      (scope.mergeLinks left op right) (scope'.mergeLinks left' op right') := by
  unfold mergeLinks
  refine .bind_within hle (hnumber hst) ?_
  rintro _ _ s t - - ⟨rfl, rfl⟩ hst
  refine .bind_within hle (.traced hst hrecord hcombine) ?_
  rintro value value' s t - - hvalue hst
  exact .bind (hemit _ value value' hst (hvalue _)) fun _ _ s t _ hst => .pure hst (hvalue _)

/-- Calls agree where what the functions compute matches and their results are recorded alike. -/
theorem agree_call {function : Function} {parts parts' : List (Part K V S)} (hst : R s t)
    (hrecord : ∀ {s t} (record : Record), R s t → R (s.addRecord record) (t.addRecord record))
    (hcompute : Traced.Matching
      (fun value value' => ∀ number, Q ⟨value, function.provenance, expressionId number⟩
        ⟨value', function.provenance, expressionId number⟩)
      (function.compute scope.settings.extent scope.prepared parts)
      (function.compute scope'.settings.extent scope'.prepared parts'))
    (hemit : ∀ {s t : Session K V S} (number : Nat) (value value' : Operand K V S), P number s t →
      Q ⟨value, function.provenance, expressionId number⟩
        ⟨value', function.provenance, expressionId number⟩ →
      Run.Agree R heed (fun _ _ => True) s t
        (emit scope.settings (expressionId number)
          (scope.prepared.expand (function.name.toList ++
            '(' :: List.intercalate [','] (parts.map (·.token)) ++ [')'])) value)
        (emit scope'.settings (expressionId number)
          (scope'.prepared.expand (function.name.toList ++
            '(' :: List.intercalate [','] (parts'.map (·.token)) ++ [')'])) value')) :
    Run.Agree R heed Q s t (scope.call function parts) (scope'.call function parts') := by
  unfold call
  refine .bind (.traced hst hrecord hcompute) fun value value' s t hvalue hst =>
    .bind_within hle (hnumber hst) ?_
  rintro _ _ s t - - ⟨rfl, rfl⟩ hst
  exact .bind (hemit _ value value' hst (hvalue _)) fun _ _ s t _ hst => .pure hst (hvalue _)

end Numbers

omit [Coordinate K] [Conversion K V] in
theorem agree_signed (hst : R s t) (negated : Bool) {part part' : Part K V S}
    (hpart : Q part part')
    (hnegate : Matching (fun value value' => Q { part with value, token := '-' :: part.token }
      { part' with value := value', token := '-' :: part'.token }) part.value.negate
        part'.value.negate) :
    Run.Agree R heed Q s t (signed negated part) (signed negated part') := by
  unfold signed
  refine .ite (fun _ => ?_) fun _ => .pure hst hpart
  exact .bind (.lift hst hnegate) fun _ _ s t hvalue hst => .pure hst hvalue

namespace Agrees

variable (h : Agrees R heed Q T scope scope')
include h

theorem checkDepth (hst : R s t) (depth : Nat) :
    Run.Agree R heed (fun _ _ => True) s t (scope.checkDepth depth) (scope'.checkDepth depth) := by
  unfold Scope.checkDepth
  rw [h.depth]
  exact .ite (fun _ => .throw hst rfl) fun _ => .pure hst trivial

theorem signed (hst : R s t) (negated : Bool) {part part' : Part K V S} (hpart : Q part part') :
    Run.Agree R heed Q s t (Scope.signed negated part) (Scope.signed negated part') :=
  agree_signed hst negated hpart (h.negate hpart)

theorem link (hst : R s t) (depth : Nat) (action : Option Operator) {part part' : Part K V S}
    (hpart : Q part part') :
    Run.Agree R heed (fun link link' => LinkMatches Q link link' ∧ link.action = action) s t
      (Scope.link depth action part) (Scope.link depth action part') :=
  .bind (h.number hst) fun _ _ _ _ _ hst => .pure hst ⟨⟨hpart, rfl⟩, rfl⟩

theorem reduce {tree tree' : Merging (Link K V S)} (hst : R s t)
    (htree : tree.Related (fun link link' => Q link.toPart link'.toPart) tree') :
    Run.Agree R heed (fun link link' => Q link.toPart link'.toPart) s t
      (tree.reduce scope.mergeLinks) (tree'.reduce scope'.mergeLinks) := by
  induction htree generalizing s t with
  | operand hlink => exact .pure hst hlink
  | merge _ _ ihl ihr =>
      rw [Merging.reduce, Merging.reduce]
      refine (ihl hst).bind fun a a' s t ha hst => ?_
      refine (ihr hst).bind fun b b' s t hb hst => ?_
      exact h.merge _ hst ha hb

theorem merge_links (hst : R s t) {links links' : Link K V S × List (Link K V S)}
    (hlinks : LinksMatch Q links links') :
    Run.Agree R heed (fun link link' => Q link.toPart link'.toPart) s t
      (scope.merge links.1 links.2) (scope'.merge links'.1 links'.2) := by
  rw [merge_eq_reduce scope hlinks.row, merge_eq_reduce scope' hlinks.row', hlinks.first.2]
  exact h.reduce hst (related_bySplitting hlinks.first.1 (forall₂_joins hlinks.rest _))

end Agrees

-- By induction on the shape. Where one side breaks off the other does too, at a place of its own.
mutual

theorem agree_evaluateLinks (h : Agrees R heed Q T scope scope') : ∀ {chain chain' : Chain}
    (depth : Nat) {s t : Session K V S}, chain.Like T chain' → R s t →
      Run.Agree R heed (LinksMatch Q) s t (scope.evaluateLinks depth chain)
        (scope'.evaluateLinks depth chain')
  | _, _, depth, _, _, .last hterm, hst => by
      rw [evaluateLinks, evaluateLinks]
      refine .bind (agree_evaluateTerm h depth hterm hst) fun part part' _ _ hpart hst => ?_
      refine .bind (h.link hst depth none hpart) fun link link' _ _ hlink hst => ?_
      obtain ⟨hlink, haction⟩ := hlink
      exact .pure hst ⟨haction, hlink.2.trans haction, hlink, .nil⟩
  | .join _ op _, _, depth, _, _, .join hterm hrest, hst => by
      rw [evaluateLinks, evaluateLinks]
      refine .bind (agree_evaluateTerm h depth hterm hst) fun part part' _ _ hpart hst => ?_
      refine .bind (h.link hst depth (some op) hpart) fun first first' _ _ hfirst hst => ?_
      refine .bind (agree_evaluateLinks h depth hrest hst) fun others others' _ _ hothers hst => ?_
      obtain ⟨hlink, haction⟩ := hfirst
      have hne : first.action ≠ none := by simp [haction]
      have hne' : first'.action ≠ none := by simp [hlink.2, haction]
      exact .pure hst ⟨⟨hne, hothers.row⟩, ⟨hne', hothers.row'⟩, hlink,
        .cons hothers.first hothers.rest⟩
  | _, _, depth, _, _, .broken hterm, hst => by
      rw [evaluateLinks, evaluateLinks]
      refine .bind (agree_evaluateTerm h depth hterm hst) fun _ _ _ _ _ hst => .throw hst ?_
      rw [kind_breakFault, kind_breakFault]

theorem agree_evaluateTerm (h : Agrees R heed Q T scope scope') : ∀ {term term' : Term}
    (depth : Nat) {s t : Session K V S}, term.Like T term' → R s t →
      Run.Agree R heed Q s t (scope.evaluateTerm depth term) (scope'.evaluateTerm depth term')
  | _, _, depth, _, _, .token htoken, hst => by
      rw [evaluateTerm, evaluateTerm]
      exact h.token hst htoken
  | _, _, depth, _, _, .missing, hst => by
      rw [evaluateTerm, evaluateTerm]
      exact .throw hst rfl
  | .group negated _, _, depth, _, _, .group hbody, hst => by
      rw [evaluateTerm, evaluateTerm]
      refine .bind (h.checkDepth hst _) fun _ _ _ _ _ hst => ?_
      refine .bind (agree_evaluateLinks h _ hbody hst) fun links links' _ _ hlinks hst => ?_
      refine .bind (h.merge_links hst hlinks) fun result result' _ _ hresult hst => ?_
      exact h.signed hst negated hresult
  | .call negated _ _, _, depth, _, _, .call hname harguments, hst => by
      rw [evaluateTerm, evaluateTerm, hname]
      split
      next => exact .throw hst rfl
      next function _ =>
        refine .bind (agree_evaluateArguments h _ harguments hst) fun _ _ _ _ hparts hst => ?_
        exact .bind (h.call function hst hparts) fun _ _ _ _ hpart hst =>
          h.signed hst negated hpart

theorem agree_evaluateArguments (h : Agrees R heed Q T scope scope') :
    ∀ {arguments arguments' : Arguments} (depth : Nat) {s t : Session K V S},
      arguments.Like T arguments' → R s t →
        Run.Agree R heed (List.Forall₂ Q) s t (scope.evaluateArguments depth arguments)
          (scope'.evaluateArguments depth arguments')
  | _, _, depth, _, _, .none, hst => by
      rw [evaluateArguments, evaluateArguments]
      exact .pure hst .nil
  | _, _, depth, _, _, .more hchain hrest, hst => by
      rw [evaluateArguments, evaluateArguments]
      refine .bind (h.checkDepth hst _) fun _ _ _ _ _ hst => ?_
      refine .bind (agree_evaluateLinks h depth hchain hst) fun links links' _ _ hlinks hst => ?_
      refine .bind (h.merge_links hst hlinks) fun result result' _ _ hresult hst => ?_
      refine .bind (agree_evaluateArguments h depth hrest hst) fun _ _ _ _ hparts hst => ?_
      exact .pure hst (.cons hresult hparts)

end

section Stuck

/-- An element of two lists in a row is in the first one or in the second one. -/
theorem exists_of_append_eq {xs ys front back : List Text} {token : Text}
    (h : xs ++ ys = front ++ token :: back) :
    (∃ middle, xs = front ++ token :: middle) ∨
      ∃ middle, front = xs ++ middle ∧ ys = middle ++ token :: back := by
  rcases List.append_eq_append_iff.mp h with ⟨middle, hfront, hys⟩ | ⟨middle, hxs, hback⟩
  · exact .inr ⟨middle, hfront, hys⟩
  · cases middle with
    | nil => exact .inr ⟨[], by rw [hxs, List.append_nil, List.append_nil], hback.symm⟩
    | cons first middle =>
        obtain ⟨rfl, -⟩ := List.cons.inj hback
        exact .inl ⟨middle, hxs⟩

variable {stuck : Text}

-- By induction on the shape. Both sides get as far as the first token that fails on both, and that
-- is as far as they get.
mutual

theorem stuck_evaluateLinks (h : Agrees R heed Q T scope scope')
    (hstuck : ∀ {s t : Session K V S}, R s t →
      Run.Agree R heed (fun _ _ => False) s t (scope.resolveToken stuck)
        (scope'.resolveToken stuck)) :
    ∀ {chain : Chain} (depth : Nat) {front back : List Text} {s t : Session K V S},
      chain.tokens = front ++ stuck :: back → (∀ token ∈ front, T token token) → R s t →
        Run.Agree R heed (fun _ _ => False) s t (scope.evaluateLinks depth chain)
          (scope'.evaluateLinks depth chain)
  | .last term, depth, _, _, _, _, htokens, hfront, hst => by
      rw [evaluateLinks, evaluateLinks]
      exact .bind (stuck_evaluateTerm h hstuck depth htokens hfront hst)
        fun _ _ _ _ hfalse => hfalse.elim
  | .join term op rest, depth, _, _, _, _, htokens, hfront, hst => by
      rw [evaluateLinks, evaluateLinks]
      rcases exists_of_append_eq htokens with ⟨middle, hterm⟩ | ⟨middle, rfl, hrest⟩
      · exact .bind (stuck_evaluateTerm h hstuck depth hterm hfront hst)
          fun _ _ _ _ hfalse => hfalse.elim
      · have hlike : term.Like T term :=
          Term.like_self fun token htoken => hfront token (List.mem_append_left _ htoken)
        refine .bind (agree_evaluateTerm h depth hlike hst) fun _ _ _ _ hpart hst => ?_
        refine .bind (h.link hst depth (some op) hpart) fun _ _ _ _ _ hst => ?_
        exact .bind (stuck_evaluateLinks h hstuck depth hrest
          (fun token htoken => hfront token (List.mem_append_right _ htoken)) hst)
          fun _ _ _ _ hfalse => hfalse.elim
  | .broken term wanted left, depth, _, _, _, _, htokens, hfront, hst => by
      rw [evaluateLinks, evaluateLinks]
      exact .bind (stuck_evaluateTerm h hstuck depth htokens hfront hst)
        fun _ _ _ _ hfalse => hfalse.elim

theorem stuck_evaluateTerm (h : Agrees R heed Q T scope scope')
    (hstuck : ∀ {s t : Session K V S}, R s t →
      Run.Agree R heed (fun _ _ => False) s t (scope.resolveToken stuck)
        (scope'.resolveToken stuck)) :
    ∀ {term : Term} (depth : Nat) {front back : List Text} {s t : Session K V S},
      term.tokens = front ++ stuck :: back → (∀ token ∈ front, T token token) → R s t →
        Run.Agree R heed (fun _ _ => False) s t (scope.evaluateTerm depth term)
          (scope'.evaluateTerm depth term)
  | .token text, depth, front, _, _, _, htokens, _, hst => by
      rw [evaluateTerm, evaluateTerm]
      have hlast : text = stuck := by
        cases front with
        | nil => exact (List.cons.inj htokens).1
        | cons _ _ => simp [Term.tokens] at htokens
      exact hlast ▸ hstuck hst
  | .missing left, _, front, _, _, _, htokens, _, _ => by
      cases front <;> cases htokens
  | .group negated body, depth, _, _, _, _, htokens, hfront, hst => by
      rw [evaluateTerm, evaluateTerm]
      refine .bind (h.checkDepth hst _) fun _ _ _ _ _ hst => ?_
      exact .bind (stuck_evaluateLinks h hstuck _ htokens hfront hst)
        fun _ _ _ _ hfalse => hfalse.elim
  | .call negated name arguments, depth, _, _, _, _, htokens, hfront, hst => by
      rw [evaluateTerm, evaluateTerm]
      split
      next => exact .throw hst rfl
      next =>
        exact .bind (stuck_evaluateArguments h hstuck _ htokens hfront hst)
          fun _ _ _ _ hfalse => hfalse.elim

theorem stuck_evaluateArguments (h : Agrees R heed Q T scope scope')
    (hstuck : ∀ {s t : Session K V S}, R s t →
      Run.Agree R heed (fun _ _ => False) s t (scope.resolveToken stuck)
        (scope'.resolveToken stuck)) :
    ∀ {arguments : Arguments} (depth : Nat) {front back : List Text} {s t : Session K V S},
      arguments.tokens = front ++ stuck :: back → (∀ token ∈ front, T token token) → R s t →
        Run.Agree R heed (fun _ _ => False) s t (scope.evaluateArguments depth arguments)
          (scope'.evaluateArguments depth arguments)
  | .none, _, front, _, _, _, htokens, _, _ => by
      cases front <;> cases htokens
  | .more first rest, depth, _, _, _, _, htokens, hfront, hst => by
      rw [evaluateArguments, evaluateArguments]
      refine .bind (h.checkDepth hst _) fun _ _ _ _ _ hst => ?_
      rcases exists_of_append_eq htokens with ⟨middle, hfirst⟩ | ⟨middle, rfl, hrest⟩
      · exact .bind (stuck_evaluateLinks h hstuck depth hfirst hfront hst)
          fun _ _ _ _ hfalse => hfalse.elim
      · have hlike : first.Like T first :=
          Chain.like_self fun token htoken => hfront token (List.mem_append_left _ htoken)
        refine .bind (agree_evaluateLinks h depth hlike hst) fun _ _ _ _ hlinks hst => ?_
        refine .bind (h.merge_links hst hlinks) fun _ _ _ _ _ hst => ?_
        exact .bind (stuck_evaluateArguments h hstuck depth hrest
          (fun token htoken => hfront token (List.mem_append_right _ htoken)) hst)
          fun _ _ _ _ hfalse => hfalse.elim

end

end Stuck

end Scope

/-- Prepared expressions that are read as chains of one shape are evaluated alike. -/
theorem agree_evaluate {R : Session K V S → Session K V S → Prop} {heed : Fault → Prop}
    {Q : Part K V S → Part K V S → Prop} {T : Text → Text → Prop}
    {settings settings' : Settings K V} {prepared prepared' : Prepared}
    (h : Scope.Agrees R heed Q T ⟨settings, prepared⟩ ⟨settings', prepared'⟩)
    (hlike : (readChain [] prepared.text).1.Like T (readChain [] prepared'.text).1)
    {s t : Session K V S} (hst : R s t) :
    Run.Agree R heed (fun found found' => ∃ part part', Q part part' ∧
      found = (part.value, if part.value.isConstant then .constant else part.provenance) ∧
      found' = (part'.value, if part'.value.isConstant then .constant else part'.provenance)) s t
      (evaluate settings prepared) (evaluate settings' prepared') := by
  unfold evaluate
  refine .bind (h.checkDepth hst 0) fun _ _ _ _ _ hst => ?_
  refine .bind (Scope.agree_evaluateLinks h 0 hlike hst) fun links links' _ _ hlinks hst => ?_
  refine .bind (h.merge_links hst hlinks) fun result result' _ _ hresult hst => ?_
  exact .pure hst ⟨result.toPart, result'.toPart, hresult, rfl, rfl⟩

/-- An expression with a token that fails on both sides fails on both sides by the first one. -/
theorem stuck_evaluate {R : Session K V S → Session K V S → Prop} {heed : Fault → Prop}
    {Q : Part K V S → Part K V S → Prop} {T : Text → Text → Prop}
    {settings settings' : Settings K V} {prepared : Prepared}
    (h : Scope.Agrees R heed Q T ⟨settings, prepared⟩ ⟨settings', prepared⟩) {stuck : Text}
    (hstuck : ∀ {s t : Session K V S}, R s t →
      Run.Agree R heed (fun _ _ => False) s t
        ((⟨settings, prepared⟩ : Scope K V).resolveToken stuck)
        ((⟨settings', prepared⟩ : Scope K V).resolveToken stuck))
    {front back : List Text} (htokens : (readChain [] prepared.text).1.tokens =
      front ++ stuck :: back) (hfront : ∀ token ∈ front, T token token)
    {s t : Session K V S} (hst : R s t) :
    Run.Agree R heed (fun _ _ => False) s t (evaluate settings prepared : Run K V S _)
      (evaluate settings' prepared) := by
  unfold evaluate
  refine .bind (h.checkDepth hst 0) fun _ _ _ _ _ hst => ?_
  exact .bind (Scope.stuck_evaluateLinks h hstuck 0 htokens hfront hst)
    fun _ _ _ _ hfalse => hfalse.elim

end Expression

namespace Script

open Run

variable {R : Session K V S → Session K V S → Prop} {heed : Fault → Prop}
  {s t : Session K V S} {plan plan' : Plan K V}

/-- Of the fault of a line, only a quiet end shows through. -/
theorem lineFault_eq_or (line : Line) (fault : Fault) :
    (∃ reason, fault = .quietStop reason ∧ Plan.lineFault line fault = .quietStop reason) ∨
      (∀ reason, fault ≠ .quietStop reason) ∧ (Plan.lineFault line fault).kind = .line := by
  cases fault with
  | quietStop reason => exact .inl ⟨reason, rfl, rfl⟩
  | _ => exact .inr ⟨nofun, rfl⟩

theorem kind_lineFault_congr (line : Line) {f g : Fault} (h : f.kind = g.kind) :
    (Plan.lineFault line f).kind = (Plan.lineFault line g).kind := by
  rcases lineFault_eq_or line f with ⟨reason, rfl, hf⟩ | ⟨hf, hline⟩
  · rw [Fault.kind_eq_quietStop_iff.mp h.symm]
  · rcases lineFault_eq_or line g with ⟨reason, rfl, hg⟩ | ⟨-, hline'⟩
    · exact absurd (Fault.kind_eq_quietStop_iff.mp h) (hf reason)
    · rw [hline, hline']

variable [Coordinate K] [Number V] [Cell S V] [Conversion K V]

/-- Carrying out a line agrees when its assignment does. -/
theorem agree_executeLine {Q : Binding K V S → Binding K V S → Prop} {line : Line} (hst : R s t)
    (hrecord : ∀ record, R (s.addRecord record) (t.addRecord record))
    (hremarks : (plan'.settings.verbose || plan'.settings.debug) =
      (plan.settings.verbose || plan.settings.debug))
    (hheed : ∀ fault, heed (Plan.lineFault line fault) → heed fault)
    (hassign : ∀ assignment, Statement.ofText line.text = .ok (.assign assignment) →
      Agree R heed Q (s.addRecord (evaluating line)) (t.addRecord (evaluating line))
        (plan.assign assignment) (plan'.assign assignment)) :
    Agree R heed (Option.Rel Q) s t (plan.executeLine line) (plan'.executeLine line) := by
  have hread : Matching Eq (Statement.ofText line.text) (Statement.ofText line.text) :=
    .of_eq rfl
  unfold Plan.executeLine
  refine .tryCatch (.bind_of_eq_ok (.lift hst hread) ?_) hheed
    fun _ _ => kind_lineFault_congr line
  rintro statement _ _ _ hstatement hstatement' rfl _
  obtain ⟨hread, rfl⟩ := from?_liftExcept_eq_ok.mp hstatement
  obtain ⟨-, rfl⟩ := from?_liftExcept_eq_ok.mp hstatement'
  unfold Plan.execute
  cases statement with
  | blank => exact .pure hst .none
  | comment text =>
      dsimp only
      rw [hremarks]
      exact .ite (fun _ => .gives .none (hrecord _)) fun _ => .pure hst .none
  | assign assignment =>
      have hbind : Agree R heed (Option.Rel Q)
          (s.addRecord (evaluating line)) (t.addRecord (evaluating line))
          (plan.assign assignment >>= fun binding => pure (some binding))
          (plan'.assign assignment >>= fun binding => pure (some binding)) :=
        .bind (hassign assignment hread) fun _ _ _ _ hbinding h => .pure h (.some hbinding)
      exact hbind
  | loop head => exact .throw hst rfl
  | next name => exact .throw hst rfl

/-- Lines agree when each of them does behind those before it. -/
theorem agree_executeLines {Q : Option (Binding K V S) → Option (Binding K V S) → Prop}
    {lines : List Line} (hst : R s t)
    (hline : ∀ front line back before before', lines = front ++ line :: back →
      from? s (plan.executeLines front) = (.ok (), before) →
      from? t (plan'.executeLines front) = (.ok (), before') → R before before' →
      Agree R heed Q before before' (plan.executeLine line) (plan'.executeLine line)) :
    Agree R heed (fun _ _ => True) s t (plan.executeLines lines) (plan'.executeLines lines) := by
  induction lines generalizing s t with
  | nil => exact .pure hst trivial
  | cons line rest ih =>
      refine .bind_of_eq_ok (hline [] line rest s t rfl rfl rfl hst)
        fun found found' between between' hfirst hfirst' _ h => ih h ?_
      intro front next back before before' hrest hfront hfront' h
      refine hline (line :: front) next back before before' ?_ ?_ ?_ h
      · rw [hrest, List.cons_append]
      · exact from?_bind_eq_ok.mpr ⟨found, between, hfirst, hfront⟩
      · exact from?_bind_eq_ok.mpr ⟨found', between', hfirst', hfront'⟩

end Script

end MapAlgebra
