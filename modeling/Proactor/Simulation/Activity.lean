import Proactor.Panic

/-!
# Activities

What a thread does with a state that it shares with other threads. An activity
looks at the state, changes it, or waits until a condition holds of it, and in
the end returns a value or panics. Between two waits no other thread comes in.

`advance` lets an activity go on until it waits for something that is not the
case. `bind_assoc`, `pure_bind` and `bind_pure` say that activities form a monad,
and `canGoOn_advance` says that an activity has been carried as far as it goes.
-/

namespace Proactor.Simulation

/-- A thread's work on a shared state, as a tree whose leaves are results. -/
inductive Activity (σ α : Type) where
  | done (value : α)
  | panicked (cause : Panic)
  | look (next : σ → Activity σ α)
  | change (state : σ) (next : Activity σ α)
  | await (ready : σ → Bool) (next : Activity σ α)

namespace Activity

variable {σ α β γ : Type}

/-! ## Composition -/

/-- Go on with another activity after the first one has returned. -/
def bind : Activity σ α → (α → Activity σ β) → Activity σ β
  | .done value, continuation => continuation value
  | .panicked cause, _ => .panicked cause
  | .look next, continuation => .look fun state => (next state).bind continuation
  | .change state next, continuation => .change state (next.bind continuation)
  | .await ready next, continuation => .await ready (next.bind continuation)

instance : Monad (Activity σ) where
  pure := .done
  bind := bind

instance : MonadStateOf σ (Activity σ) where
  get := .look .done
  set state := .change state (.done ())
  modifyGet act := .look fun state =>
    let (value, state) := act state
    .change state (.done value)

/-- Go on with another activity after the first one has panicked. -/
def rescue : Activity σ α → (Panic → Activity σ α) → Activity σ α
  | .done value, _ => .done value
  | .panicked cause, handler => handler cause
  | .look next, handler => .look fun state => (next state).rescue handler
  | .change state next, handler => .change state (next.rescue handler)
  | .await ready next, handler => .await ready (next.rescue handler)

instance : MonadExceptOf Panic (Activity σ) where
  throw := .panicked
  tryCatch := rescue

/-- Wait until a condition holds. -/
def waitUntil (ready : σ → Bool) : Activity σ Unit :=
  .await ready (.done ())

/-- How an activity ends: with a value, or in a panic, which goes no further. -/
def outcome (activity : Activity σ α) : Activity σ (Except Panic α) :=
  (activity.bind fun value => .done (.ok value)).rescue fun cause => .done (.error cause)

/-- End as another activity has ended. -/
def ofOutcome : Except Panic α → Activity σ α
  | .ok value => .done value
  | .error cause => .panicked cause

/-- What follows a value goes on with that value. -/
@[simp]
theorem pure_bind (value : α) (continuation : α → Activity σ β) :
    (pure value : Activity σ α) >>= continuation = continuation value :=
  rfl

/-- Returning the value of an activity adds nothing to it. -/
@[simp]
theorem bind_pure (activity : Activity σ α) : activity >>= pure = activity := by
  induction activity with
  | done => rfl
  | panicked => rfl
  | look next ih => exact congrArg Activity.look (funext ih)
  | change state next ih => exact congrArg (Activity.change state) ih
  | await ready next ih => exact congrArg (Activity.await ready) ih

/-- How three activities in a row are grouped makes no difference. -/
theorem bind_assoc (activity : Activity σ α) (second : α → Activity σ β)
    (third : β → Activity σ γ) :
    activity >>= second >>= third = activity >>= fun value => second value >>= third := by
  induction activity with
  | done => rfl
  | panicked => rfl
  | look next ih => exact congrArg Activity.look (funext ih)
  | change state next ih => exact congrArg (Activity.change state) ih
  | await ready next ih => exact congrArg (Activity.await ready) ih

instance : LawfulMonad (Activity σ) :=
  LawfulMonad.mk' (Activity σ) bind_pure (fun _ _ => rfl) bind_assoc

/-! ## Going on -/

/-- Whether an activity has returned or panicked. -/
def isOver : Activity σ α → Bool
  | .done _ => true
  | .panicked _ => true
  | _ => false

/-- Whether an activity has something to do in a state. -/
def canGoOn : Activity σ α → σ → Bool
  | .done _, _ => false
  | .panicked _, _ => false
  | .await ready _, state => ready state
  | _, _ => true

/-- Go on until the activity is over or waits for something that is not the case. -/
def advance : Activity σ α → σ → Activity σ α × σ
  | .done value, state => (.done value, state)
  | .panicked cause, state => (.panicked cause, state)
  | .look next, state => (next state).advance state
  | .change state next, _ => next.advance state
  | .await ready next, state =>
      if ready state then next.advance state else (.await ready next, state)

/-- An activity that has been advanced cannot go on in the state it has reached. -/
theorem canGoOn_advance (activity : Activity σ α) (state : σ) :
    (activity.advance state).1.canGoOn (activity.advance state).2 = false := by
  induction activity generalizing state with
  | done => rfl
  | panicked => rfl
  | look next ih => exact ih state state
  | change after next ih => exact ih after
  | await ready next ih =>
      unfold advance
      split
      · exact ih state
      · simpa [canGoOn] using ‹¬ready state = true›

end Activity

end Proactor.Simulation
