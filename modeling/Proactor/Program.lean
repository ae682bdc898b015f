import Proactor.Request

/-!
# Programs

A program makes requests and goes on with the answers until it returns a value
or panics. It is a finite tree, so every program ends after finitely many
requests whatever the answers are. Activities that may go on for ever are given
as machines whose single steps are programs.

`bind_assoc`, `pure_bind` and `bind_pure` say that programs form a monad.
-/

namespace Proactor

/-- A tree of requests whose leaves are results. -/
inductive Program (σ α : Type) where
  | done (value : α)
  | panic (cause : Panic)
  | call (request : Request σ) (next : request.Answer → Program σ α)

namespace Program

variable {σ α β γ : Type}

/-- Go on with another program after the first one has returned. -/
def bind : Program σ α → (α → Program σ β) → Program σ β
  | .done value, continuation => continuation value
  | .panic cause, _ => .panic cause
  | .call request next, continuation => .call request fun answer => (next answer).bind continuation

instance : Monad (Program σ) where
  pure := .done
  bind := bind

/-- Make one request and return its answer. -/
def ask (request : Request σ) : Program σ request.Answer :=
  .call request .done

/-- Write a log record. -/
def log (record : Log) : Program σ Unit :=
  ask (.log record)

/-- What follows a value goes on with that value. -/
@[simp]
theorem pure_bind (value : α) (continuation : α → Program σ β) :
    (pure value : Program σ α) >>= continuation = continuation value :=
  rfl

/-- Nothing follows a panic. -/
@[simp]
theorem panic_bind (cause : Panic) (continuation : α → Program σ β) :
    (Program.panic cause : Program σ α) >>= continuation = .panic cause :=
  rfl

/-- A program that starts with a request still starts with it when something follows. -/
@[simp]
theorem call_bind (request : Request σ) (next : request.Answer → Program σ α)
    (continuation : α → Program σ β) :
    Program.call request next >>= continuation =
      .call request fun answer => next answer >>= continuation :=
  rfl

/-- What follows a request goes on with its answer. -/
@[simp]
theorem ask_bind (request : Request σ) (continuation : request.Answer → Program σ β) :
    ask request >>= continuation = .call request continuation :=
  rfl

/-- Returning the value of a program adds nothing to it. -/
@[simp]
theorem bind_pure (program : Program σ α) : program >>= pure = program := by
  induction program with
  | done => rfl
  | panic => rfl
  | call request next ih =>
      rw [call_bind]
      exact congrArg (Program.call request) (funext ih)

/-- How three programs in a row are grouped makes no difference. -/
theorem bind_assoc (program : Program σ α) (second : α → Program σ β)
    (third : β → Program σ γ) :
    program >>= second >>= third = program >>= fun value => second value >>= third := by
  induction program with
  | done => rfl
  | panic => rfl
  | call request next ih =>
      simp only [call_bind]
      exact congrArg (Program.call request) (funext ih)

instance : LawfulMonad (Program σ) :=
  LawfulMonad.mk' (Program σ) bind_pure (fun _ _ => rfl) bind_assoc

end Program

end Proactor
