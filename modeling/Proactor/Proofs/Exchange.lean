import Proactor.Program

/-!
# Runs of programs

A run of a program pairs each of its requests with an answer. Nothing is assumed
about the answers, so a statement about all runs is a statement about every
environment. `runs_bind` cuts a run at the point where a program goes on with
another one.
-/

namespace Proactor

/-- A request together with the answer to it. -/
structure Exchange (σ : Type) where
  request : Request σ
  answer : request.Answer

/-- How a program ends. -/
inductive Outcome (α : Type) where
  | returned (value : α)
  | panicked (cause : Panic)

namespace Program

variable {σ α β : Type}

/-- Answered as in the exchanges, the program makes exactly these requests and ends like this. -/
def Runs : Program σ α → List (Exchange σ) → Outcome α → Prop
  | .done value, exchanges, outcome => exchanges = [] ∧ outcome = .returned value
  | .panic cause, exchanges, outcome => exchanges = [] ∧ outcome = .panicked cause
  | .call request next, exchanges, outcome =>
      ∃ answer rest, exchanges = ⟨request, answer⟩ :: rest ∧ (next answer).Runs rest outcome

/-- The program can end with this value after these exchanges. -/
def Returns (program : Program σ α) (exchanges : List (Exchange σ)) (value : α) : Prop :=
  program.Runs exchanges (.returned value)

/-- No answers make the program panic. -/
def NeverPanics (program : Program σ α) : Prop :=
  ∀ exchanges cause, ¬ program.Runs exchanges (.panicked cause)

/-! ## Returning -/

/-- A value is returned at once, and it is the only one. -/
@[simp]
theorem returns_pure {value result : α} {exchanges : List (Exchange σ)} :
    (pure value : Program σ α).Returns exchanges result ↔ exchanges = [] ∧ result = value := by
  show (exchanges = [] ∧ Outcome.returned result = .returned value) ↔ _
  simp

/-- A program that panics returns nothing. -/
@[simp]
theorem returns_panic {cause : Panic} {result : α} {exchanges : List (Exchange σ)} :
    ¬ (Program.panic cause : Program σ α).Returns exchanges result := by
  rintro ⟨_, h⟩
  cases h

/-- A program that starts with a request returns what its continuation returns for some answer. -/
@[simp]
theorem returns_call {request : Request σ} {next : request.Answer → Program σ α}
    {exchanges : List (Exchange σ)} {result : α} :
    (Program.call request next).Returns exchanges result ↔
      ∃ answer rest, exchanges = ⟨request, answer⟩ :: rest ∧ (next answer).Returns rest result :=
  Iff.rfl

/-- A single request returns its answer. -/
@[simp]
theorem returns_ask {request : Request σ} {exchanges : List (Exchange σ)}
    {answer : request.Answer} :
    (ask request).Returns exchanges answer ↔ exchanges = [⟨request, answer⟩] := by
  show (∃ given rest, exchanges = ⟨request, given⟩ :: rest ∧ rest = [] ∧
    Outcome.returned answer = .returned given) ↔ _
  constructor
  · rintro ⟨given, rest, rfl, rfl, h⟩
    cases h
    rfl
  · rintro rfl
    exact ⟨answer, [], rfl, rfl, rfl⟩

/-- A program that begins with a request goes on with the answer to it. -/
theorem returns_ask_bind {request : Request σ} {continuation : request.Answer → Program σ α}
    {exchanges : List (Exchange σ)} {result : α} :
    (ask request >>= continuation).Returns exchanges result ↔
      ∃ answer rest, exchanges = ⟨request, answer⟩ :: rest ∧
        (continuation answer).Returns rest result :=
  Iff.rfl

/-- A program that goes on with another one returns what the second one returns after the first
one has returned. -/
theorem returns_bind {program : Program σ α} {continuation : α → Program σ β}
    {exchanges : List (Exchange σ)} {result : β} :
    (program >>= continuation).Returns exchanges result ↔
      ∃ value first second, exchanges = first ++ second ∧ program.Returns first value ∧
        (continuation value).Returns second result := by
  -- the first program returns before the second one asks for anything, so the exchanges can be
  -- cut where it does
  induction program generalizing exchanges with
  | done value =>
      constructor
      · intro h
        exact ⟨value, [], exchanges, rfl, ⟨rfl, rfl⟩, h⟩
      · rintro ⟨_, _, second, rfl, ⟨rfl, h⟩, hsecond⟩
        cases h
        exact hsecond
  | panic cause =>
      constructor
      · intro h
        exact absurd h returns_panic
      · rintro ⟨_, _, _, _, h, _⟩
        exact absurd h returns_panic
  | call request next ih =>
      rw [call_bind, returns_call]
      constructor
      · rintro ⟨answer, rest, rfl, h⟩
        obtain ⟨value, first, second, rfl, hfirst, hsecond⟩ := (ih answer).mp h
        exact ⟨value, ⟨request, answer⟩ :: first, second, rfl, ⟨answer, first, rfl, hfirst⟩,
          hsecond⟩
      · rintro ⟨value, _, second, rfl, ⟨answer, first, rfl, hfirst⟩, hsecond⟩
        exact ⟨answer, first ++ second, rfl,
          (ih answer).mpr ⟨value, first, second, rfl, hfirst, hsecond⟩⟩

/-! ## Never panicking -/

/-- Returning a value cannot panic. -/
@[simp]
theorem neverPanics_pure (value : α) : (pure value : Program σ α).NeverPanics := by
  rintro exchanges cause ⟨_, h⟩
  cases h

/-- A program that starts with a request cannot panic if and only if its continuation cannot, for
any answer. -/
theorem neverPanics_call {request : Request σ} {next : request.Answer → Program σ α} :
    (Program.call request next).NeverPanics ↔ ∀ answer, (next answer).NeverPanics := by
  constructor
  · intro h answer exchanges cause hruns
    exact h (⟨request, answer⟩ :: exchanges) cause ⟨answer, exchanges, rfl, hruns⟩
  · rintro h _ cause ⟨answer, rest, rfl, hruns⟩
    exact h answer rest cause hruns

/-- A single request cannot panic. -/
@[simp]
theorem neverPanics_ask (request : Request σ) : (ask request).NeverPanics :=
  neverPanics_call.mpr neverPanics_pure

/-- Two programs in a row cannot panic if neither of them can. -/
theorem NeverPanics.bind {program : Program σ α} {continuation : α → Program σ β}
    (hprogram : program.NeverPanics) (hcontinuation : ∀ value, (continuation value).NeverPanics) :
    (program >>= continuation).NeverPanics := by
  induction program with
  | done value => exact hcontinuation value
  | panic cause => exact absurd ⟨rfl, rfl⟩ (hprogram [] cause)
  | call request next ih =>
      rw [call_bind, neverPanics_call]
      exact fun answer => ih answer (neverPanics_call.mp hprogram answer)

/-- A request followed by a program panics if and only if that program does, for some answer. -/
theorem panics_ask_bind {request : Request σ} {continuation : request.Answer → Program σ α}
    {exchanges : List (Exchange σ)} {cause : Panic} :
    (ask request >>= continuation).Runs exchanges (.panicked cause) ↔
      ∃ answer rest, exchanges = ⟨request, answer⟩ :: rest ∧
        (continuation answer).Runs rest (.panicked cause) :=
  Iff.rfl

/-- A panic comes from the first program or, after that one has returned, from the second one. -/
theorem panics_bind {program : Program σ α} {continuation : α → Program σ β}
    {exchanges : List (Exchange σ)} {cause : Panic}
    (h : (program >>= continuation).Runs exchanges (.panicked cause)) :
    program.Runs exchanges (.panicked cause) ∨
      ∃ value first second, exchanges = first ++ second ∧ program.Returns first value ∧
        (continuation value).Runs second (.panicked cause) := by
  induction program generalizing exchanges with
  | done value => exact .inr ⟨value, [], exchanges, rfl, ⟨rfl, rfl⟩, h⟩
  | panic other =>
      obtain ⟨rfl, hcause⟩ := h
      cases hcause
      exact .inl ⟨rfl, rfl⟩
  | call request next ih =>
      obtain ⟨answer, rest, rfl, hrest⟩ := h
      rcases ih answer hrest with hfirst | ⟨value, first, second, rfl, hfirst, hsecond⟩
      · exact .inl ⟨answer, rest, rfl, hfirst⟩
      · exact .inr ⟨value, _ :: first, second, rfl, ⟨answer, first, rfl, hfirst⟩, hsecond⟩

/-- The runs of a request followed by a program are those of the program, for some answer. -/
theorem runs_ask_bind {request : Request σ} {continuation : request.Answer → Program σ α}
    {exchanges : List (Exchange σ)} {outcome : Outcome α} :
    (ask request >>= continuation).Runs exchanges outcome ↔
      ∃ answer rest, exchanges = ⟨request, answer⟩ :: rest ∧
        (continuation answer).Runs rest outcome :=
  Iff.rfl

/-- A run of one program that goes on with another one ends in a panic of the first, or with the
end of the second after the first has returned. -/
theorem runs_bind {program : Program σ α} {continuation : α → Program σ β}
    {exchanges : List (Exchange σ)} {outcome : Outcome β}
    (h : (program >>= continuation).Runs exchanges outcome) :
    (∃ cause, outcome = .panicked cause ∧ program.Runs exchanges (.panicked cause)) ∨
      ∃ value first second, exchanges = first ++ second ∧ program.Returns first value ∧
        (continuation value).Runs second outcome := by
  cases outcome with
  | returned result => exact .inr (returns_bind.mp h)
  | panicked cause => exact (panics_bind h).imp_left fun hpanics => ⟨cause, rfl, hpanics⟩

/-! ## Requests -/

/-- All requests that the program can make are of the given kind. -/
def Asks (kind : Request σ → Prop) : Program σ α → Prop
  | .done _ => True
  | .panic _ => True
  | .call request next => kind request ∧ ∀ answer, (next answer).Asks kind

variable {kind : Request σ → Prop}

/-- Returning a value asks for nothing. -/
@[simp]
theorem asks_pure (value : α) : (pure value : Program σ α).Asks kind :=
  trivial

/-- A program that panics asks for nothing. -/
@[simp]
theorem asks_panic (cause : Panic) : (Program.panic cause : Program σ α).Asks kind :=
  trivial

/-- A single request asks for what it is. -/
theorem asks_ask {request : Request σ} : (ask request).Asks kind ↔ kind request :=
  and_iff_left fun _ => trivial

/-- A request followed by a program asks for itself and for what that program asks for. -/
theorem asks_ask_bind {request : Request σ} {continuation : request.Answer → Program σ α} :
    (ask request >>= continuation).Asks kind ↔
      kind request ∧ ∀ answer, (continuation answer).Asks kind :=
  Iff.rfl

/-- Two programs in a row ask for requests of a kind if both of them do. -/
theorem Asks.bind {program : Program σ α} {continuation : α → Program σ β}
    (hprogram : program.Asks kind) (hcontinuation : ∀ value, (continuation value).Asks kind) :
    (program >>= continuation).Asks kind := by
  induction program with
  | done value => exact hcontinuation value
  | panic cause => trivial
  | call request next ih =>
      obtain ⟨hrequest, hnext⟩ := hprogram
      exact ⟨hrequest, fun answer => ih answer (hnext answer)⟩

/-- A program that asks for requests of a kind asks for those of every wider kind. -/
theorem Asks.mono {other : Request σ → Prop} {program : Program σ α} (h : program.Asks kind)
    (hother : ∀ request, kind request → other request) : program.Asks other := by
  induction program with
  | done value => trivial
  | panic cause => trivial
  | call request next ih => exact ⟨hother request h.1, fun answer => ih answer (h.2 answer)⟩

/-- A run makes only requests that the program can make. -/
theorem Asks.request {program : Program σ α} {exchanges : List (Exchange σ)}
    {outcome : Outcome α} (h : program.Asks kind) (hruns : program.Runs exchanges outcome) :
    ∀ exchange ∈ exchanges, kind exchange.request := by
  induction program generalizing exchanges with
  | done value =>
      obtain ⟨rfl, -⟩ := hruns
      exact List.forall_mem_nil _
  | panic cause =>
      obtain ⟨rfl, -⟩ := hruns
      exact List.forall_mem_nil _
  | call request next ih =>
      obtain ⟨answer, rest, rfl, hrest⟩ := hruns
      exact List.forall_mem_cons.mpr ⟨h.1, ih answer (h.2 answer) hrest⟩

end Program

end Proactor
