import PageCache.Error
import PageCache.Event

/-!
# Outcomes

Every operation answers with an `Outcome`: the answer or the failure, the state it leaves behind
in either case, and the events it reported, in order. `andThen` chains operations: a failure ends
the chain and keeps the state it was met in.
-/

namespace PageCache

structure Outcome (σ α : Type) where
  result : Except Failure α
  state : σ
  events : List Event

namespace Outcome

variable {σ τ α β : Type}

/-- Answer `a`, in silence. -/
def ok (a : α) (s : σ) : Outcome σ α :=
  ⟨.ok a, s, []⟩

/-- Fail, in silence. -/
def fail (e : Failure) (s : σ) : Outcome σ α :=
  ⟨.error e, s, []⟩

/-- The same outcome, after `events`. -/
def after (events : List Event) (o : Outcome σ α) : Outcome σ α :=
  { o with events := events ++ o.events }

/-- Go on with the answer and the state, or stop at the failure. -/
def andThen (o : Outcome σ α) (next : α → σ → Outcome σ β) : Outcome σ β :=
  match o.result with
  | .ok a => (next a o.state).after o.events
  | .error e => ⟨.error e, o.state, o.events⟩

def map (f : α → β) (o : Outcome σ α) : Outcome σ β :=
  { o with result := o.result.map f }

/-- The outcome seen as that of a step on a larger state. -/
def inside (f : σ → τ) (o : Outcome σ α) : Outcome τ α :=
  { o with state := f o.state }

/-! ## Laws -/

@[simp] theorem result_ok (a : α) (s : σ) : (ok a s).result = .ok a := rfl
@[simp] theorem state_ok (a : α) (s : σ) : (ok a s).state = s := rfl
@[simp] theorem events_ok (a : α) (s : σ) : (ok a s).events = [] := rfl

@[simp] theorem result_fail (e : Failure) (s : σ) :
    (fail e s : Outcome σ α).result = .error e := rfl
@[simp] theorem state_fail (e : Failure) (s : σ) : (fail e s : Outcome σ α).state = s := rfl
@[simp] theorem events_fail (e : Failure) (s : σ) : (fail e s : Outcome σ α).events = [] := rfl

@[simp] theorem result_after (events : List Event) (o : Outcome σ α) :
    (o.after events).result = o.result := rfl
@[simp] theorem state_after (events : List Event) (o : Outcome σ α) :
    (o.after events).state = o.state := rfl
@[simp] theorem events_after (events : List Event) (o : Outcome σ α) :
    (o.after events).events = events ++ o.events := rfl

@[simp] theorem state_map (f : α → β) (o : Outcome σ α) : (o.map f).state = o.state := rfl
@[simp] theorem events_map (f : α → β) (o : Outcome σ α) : (o.map f).events = o.events := rfl
@[simp] theorem result_map (f : α → β) (o : Outcome σ α) :
    (o.map f).result = o.result.map f := rfl

/-- An answer comes from an answer. -/
theorem result_map_eq_ok_iff {f : α → β} {o : Outcome σ α} {b : β} :
    (o.map f).result = .ok b ↔ ∃ a, o.result = .ok a ∧ f a = b := by
  rw [result_map]
  cases o.result <;> simp [Except.map]

/-- A failure is passed on as it is. -/
theorem result_map_eq_error_iff {f : α → β} {o : Outcome σ α} {e : Failure} :
    (o.map f).result = .error e ↔ o.result = .error e := by
  rw [result_map]
  cases o.result <;> simp [Except.map]

@[simp] theorem result_inside (f : σ → τ) (o : Outcome σ α) :
    (o.inside f).result = o.result := rfl
@[simp] theorem state_inside (f : σ → τ) (o : Outcome σ α) :
    (o.inside f).state = f o.state := rfl
@[simp] theorem events_inside (f : σ → τ) (o : Outcome σ α) :
    (o.inside f).events = o.events := rfl

/-- After an answer the chain goes on, and the reports of both parts are kept. -/
theorem andThen_of_ok {o : Outcome σ α} {a : α} (h : o.result = .ok a)
    (next : α → σ → Outcome σ β) : o.andThen next = (next a o.state).after o.events := by
  simp only [andThen, h]

/-- After a failure the chain does not go on. -/
theorem andThen_of_error {o : Outcome σ α} {e : Failure} (h : o.result = .error e)
    (next : α → σ → Outcome σ β) : o.andThen next = ⟨.error e, o.state, o.events⟩ := by
  simp only [andThen, h]

/-- What was reported before a chain was reported before all of it. -/
theorem after_andThen (events : List Event) (o : Outcome σ α) (next : α → σ → Outcome σ β) :
    (o.after events).andThen next = (o.andThen next).after events := by
  cases h : o.result with
  | error e => simp only [andThen, after, h]
  | ok a => simp only [andThen, after, h, List.append_assoc]

/-- Chains of three may be put together from either end. -/
theorem andThen_assoc {γ : Type} (o : Outcome σ α) (f : α → σ → Outcome σ β)
    (g : β → σ → Outcome σ γ) :
    (o.andThen f).andThen g = o.andThen fun a s => (f a s).andThen g := by
  cases h : o.result with
  | error e => rw [andThen_of_error h, andThen_of_error h, andThen_of_error rfl]
  | ok a => rw [andThen_of_ok h, andThen_of_ok h, after_andThen]

/-- A chain ends where its first part ends, or where the second goes on to from there. -/
theorem state_andThen {P : σ → Prop} {o : Outcome σ α} {next : α → σ → Outcome σ β}
    (hstop : P o.state) (hnext : ∀ a, o.result = .ok a → P (next a o.state).state) :
    P (o.andThen next).state := by
  cases h : o.result with
  | error e =>
    rw [andThen_of_error h]
    exact hstop
  | ok a =>
    rw [andThen_of_ok h]
    exact hnext a h

end Outcome

end PageCache
