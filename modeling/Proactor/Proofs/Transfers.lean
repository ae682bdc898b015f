import Proactor.Proofs.Exchange
import Proactor.Proofs.Lending
import Proactor.Transfer

/-!
# What transfers come to

An attempt makes one call, or two when a socket call is refused because the
descriptor is not a socket. `Reading` and `Writing` list what attempts do with
the answers. The chunks of an exchange are the pieces of data that the system
has taken or handed over in it.
-/

namespace Proactor

/-! ## Chunks -/

/-- The descriptor whose data a request moves. -/
def Request.transferOn? {σ : Type} : Request σ → Option Fd
  | read fd _ => some fd
  | send fd _ => some fd
  | write fd _ => some fd
  | _ => none

namespace Exchange

variable {σ : Type}

/-- The bytes that the system has accepted on a descriptor: the front of what it was given. -/
def accepted (fd : Fd) : Exchange σ → List Bytes
  | ⟨.send target bytes, .ok count⟩ => if target = fd then [bytes.take count] else []
  | ⟨.write target bytes, .ok count⟩ => if target = fd then [bytes.take count] else []
  | _ => []

/-- The bytes that the system has handed over from a descriptor. -/
def arrived (fd : Fd) : Exchange σ → List Bytes
  | ⟨.read target _, .ok bytes⟩ => if target = fd then [bytes] else []
  | _ => []

/-- The system accepts no more bytes than it was given. -/
def AcceptsAtMost : Exchange σ → Prop
  | ⟨.send _ bytes, .ok count⟩ => count ≤ bytes.length
  | ⟨.write _ bytes, .ok count⟩ => count ≤ bytes.length
  | _ => True

/-- The system hands over no more bytes than there is room for. -/
def ArrivesAtMost : Exchange σ → Prop
  | ⟨.read _ count, .ok bytes⟩ => bytes.length ≤ count
  | _ => True

/-- Bytes are accepted in calls that write. -/
theorem transferOn?_of_accepted {exchange : Exchange σ} {fd : Fd}
    (h : exchange.accepted fd ≠ []) :
    exchange.request.transferOn? = some fd ∧
      ∀ target count, exchange.request ≠ .read target count := by
  unfold accepted at h
  split at h
  · split at h
    · rename_i heq
      exact ⟨congrArg some heq, fun _ _ => by rintro ⟨⟩⟩
    · exact absurd rfl h
  · split at h
    · rename_i heq
      exact ⟨congrArg some heq, fun _ _ => by rintro ⟨⟩⟩
    · exact absurd rfl h
  · exact absurd rfl h

/-- Bytes are handed over in calls that read. -/
theorem request_of_arrived {exchange : Exchange σ} {fd : Fd} (h : exchange.arrived fd ≠ []) :
    ∃ count, exchange.request = .read fd count := by
  unfold arrived at h
  split at h
  · split at h
    · rename_i heq
      exact ⟨_, by rw [heq]⟩
    · exact absurd rfl h
  · exact absurd rfl h

end Exchange

/-- The chunks that the system has accepted on a descriptor in some exchanges. -/
def accepted {σ : Type} (fd : Fd) (exchanges : List (Exchange σ)) : List Bytes :=
  exchanges.flatMap (Exchange.accepted fd)

/-- The chunks that the system has handed over from a descriptor in some exchanges. -/
def arrived {σ : Type} (fd : Fd) (exchanges : List (Exchange σ)) : List Bytes :=
  exchanges.flatMap (Exchange.arrived fd)

section Quiet

variable {σ : Type} {exchanges : List (Exchange σ)} {fd : Fd}

/-- Without a transfer on a descriptor nothing is accepted there. -/
theorem accepted_quiet (h : ∀ exchange ∈ exchanges, exchange.request.transferOn? ≠ some fd) :
    accepted fd exchanges = [] := by
  refine List.flatMap_eq_nil_iff.mpr fun exchange hexchange => ?_
  refine Classical.byContradiction fun haccepted => ?_
  exact h exchange hexchange (Exchange.transferOn?_of_accepted haccepted).1

/-- Without a read from a descriptor nothing is handed over from there. -/
theorem arrived_quiet
    (h : ∀ exchange ∈ exchanges, ∀ count, exchange.request ≠ .read fd count) :
    arrived fd exchanges = [] := by
  refine List.flatMap_eq_nil_iff.mpr fun exchange hexchange => ?_
  refine Classical.byContradiction fun harrived => ?_
  obtain ⟨count, hrequest⟩ := Exchange.request_of_arrived harrived
  exact h exchange hexchange count hrequest

end Quiet

namespace Transfer

variable {σ : Type}

/-! ## Reading -/

/-- What an attempt to read can come to. -/
inductive Reading (operation : Operation σ) :
    List (Exchange σ) → Operation σ × Attempt → Prop where
  | arrived (bytes : Bytes) :
      Reading operation [⟨.read operation.fd operation.buffer.length, .ok bytes⟩]
        ({ operation with
            buffer := bytes ++ operation.buffer.drop bytes.length
            transferred := bytes.length }, .finished none)
  | refused (errno : Errno) :
      Reading operation [⟨.read operation.fd operation.buffer.length, .error errno⟩]
        (operation, failed (.system errno))

/-- Everything that an attempt to read can come to. -/
theorem read_cases {operation : Operation σ} {exchanges : List (Exchange σ)}
    {answer : Operation σ × Attempt} (h : (read operation).Returns exchanges answer) :
    Reading operation exchanges answer := by
  obtain ⟨result, rest, rfl, hrest⟩ := Program.returns_ask_bind.mp h
  cases result with
  | ok bytes =>
      obtain ⟨rfl, rfl⟩ := Program.returns_pure.mp hrest
      exact .arrived bytes
  | error errno =>
      obtain ⟨rfl, rfl⟩ := Program.returns_pure.mp hrest
      exact .refused errno

/-- An attempt to read cannot panic. -/
theorem read_neverPanics (operation : Operation σ) : (read operation).NeverPanics := by
  refine (Program.neverPanics_ask _).bind fun result => ?_
  cases result <;> exact Program.neverPanics_pure _

/-! ## Writing -/

/-- What writing bytes once can come to. Only the mark for descriptors that are no sockets can
change in the operation. -/
inductive Pushing (operation : Operation σ) (bytes : Bytes) :
    List (Exchange σ) → Operation σ × Except Errno Nat → Prop where
  | plain (answer : Except Errno Nat) :
      Pushing operation bytes [⟨.write operation.fd bytes, answer⟩] (operation, answer)
  | socket (answer : Except Errno Nat) :
      Pushing operation bytes [⟨.send operation.fd bytes, answer⟩] (operation, answer)
  | fallback (answer : Except Errno Nat) :
      Pushing operation bytes
        [⟨.send operation.fd bytes, .error .notSocket⟩, ⟨.write operation.fd bytes, answer⟩]
        ({ operation with notSocket := true }, answer)

section Pushing

variable {operation pushed : Operation σ} {bytes : Bytes} {exchanges : List (Exchange σ)}

/-- Writing bytes once leaves the bytes and their count in the operation alone. -/
theorem Pushing.same {answer : Except Errno Nat}
    (h : Pushing operation bytes exchanges (pushed, answer)) :
    pushed.ticket = operation.ticket ∧ pushed.buffer = operation.buffer ∧
      pushed.transferred = operation.transferred := by
  cases h <;> exact ⟨rfl, rfl, rfl⟩

/-- When bytes are written, what is accepted is the front of them that is reported. -/
theorem Pushing.accepted_of_ok {count : Nat}
    (h : Pushing operation bytes exchanges (pushed, .ok count)) :
    accepted operation.fd exchanges = [bytes.take count] := by
  cases h <;> simp [accepted, Exchange.accepted]

/-- When no bytes are written, none are accepted. -/
theorem Pushing.accepted_of_error {errno : Errno}
    (h : Pushing operation bytes exchanges (pushed, .error errno)) :
    accepted operation.fd exchanges = [] := by
  cases h <;> simp [accepted, Exchange.accepted]

/-- No more bytes are written than there are, if the system accepts no more than it was given. -/
theorem Pushing.count_le {count : Nat}
    (h : Pushing operation bytes exchanges (pushed, .ok count))
    (hsound : ∀ exchange ∈ exchanges, exchange.AcceptsAtMost) : count ≤ bytes.length := by
  cases h with
  | plain | socket => exact hsound _ (List.mem_singleton_self _)
  | fallback => exact hsound _ (List.mem_cons_of_mem _ (List.mem_singleton_self _))

end Pushing

/-- All that writing bytes once can come to is listed in `Pushing`. -/
theorem writeBytes_cases {operation : Operation σ} {bytes : Bytes}
    {exchanges : List (Exchange σ)} {answer : Operation σ × Except Errno Nat}
    (h : (writeBytes operation bytes).Returns exchanges answer) :
    Pushing operation bytes exchanges answer := by
  unfold writeBytes at h
  split at h
  · obtain ⟨result, rest, rfl, hrest⟩ := Program.returns_ask_bind.mp h
    obtain ⟨rfl, rfl⟩ := Program.returns_pure.mp hrest
    exact .plain result
  · obtain ⟨result, rest, rfl, hrest⟩ := Program.returns_ask_bind.mp h
    cases result with
    | ok count =>
        obtain ⟨rfl, rfl⟩ := Program.returns_pure.mp hrest
        exact .socket (.ok count)
    | error errno =>
        by_cases herrno : errno = .notSocket
        · subst herrno
          obtain ⟨result, last, rfl, hlast⟩ := Program.returns_ask_bind.mp hrest
          obtain ⟨rfl, rfl⟩ := Program.returns_pure.mp hlast
          exact .fallback result
        · simp only [herrno, if_false] at hrest
          obtain ⟨rfl, rfl⟩ := Program.returns_pure.mp hrest
          exact .socket (.error errno)

/-- Writing bytes cannot panic. -/
theorem writeBytes_neverPanics (operation : Operation σ) (bytes : Bytes) :
    (writeBytes operation bytes).NeverPanics := by
  unfold writeBytes
  split
  · exact (Program.neverPanics_ask _).bind fun _ => Program.neverPanics_pure _
  · refine (Program.neverPanics_ask _).bind fun result => ?_
    cases result with
    | ok count => exact Program.neverPanics_pure _
    | error errno =>
        dsimp only
        split
        · exact (Program.neverPanics_ask _).bind fun _ => Program.neverPanics_pure _
        · exact Program.neverPanics_pure _

/-- What an attempt to write can come to, in terms of the bytes that are not out yet. -/
inductive Writing (operation : Operation σ) :
    List (Exchange σ) → Operation σ × Attempt → Prop where
  | accepted {exchanges : List (Exchange σ)} {pushed : Operation σ} (count : Nat)
      (hpushed : Pushing operation (operation.buffer.drop operation.transferred) exchanges
        (pushed, .ok count)) :
      Writing operation exchanges
        ({ pushed with transferred := operation.transferred + count },
          if operation.transferred + count = operation.buffer.length then .finished none
          else .retry)
  | refused {exchanges : List (Exchange σ)} {pushed : Operation σ} (errno : Errno)
      (hpushed : Pushing operation (operation.buffer.drop operation.transferred) exchanges
        (pushed, .error errno)) :
      Writing operation exchanges (pushed, failed (.system errno))

/-- Everything that an attempt to write can come to. -/
theorem write_cases {operation : Operation σ} {exchanges : List (Exchange σ)}
    {answer : Operation σ × Attempt} (h : (write operation).Returns exchanges answer) :
    Writing operation exchanges answer := by
  unfold write at h
  split at h
  · obtain ⟨⟨pushed, result⟩, before, after, rfl, hpush, hrest⟩ := Program.returns_bind.mp h
    have hpushed := writeBytes_cases hpush
    -- the program reads the buffer and the count again after the call, which has left them alone
    cases result with
    | ok count =>
        obtain ⟨-, hbuffer, htransferred⟩ := hpushed.same
        have hwriting := Writing.accepted count hpushed
        rw [← hbuffer, ← htransferred] at hwriting
        dsimp only at hrest
        split at hrest
        · obtain ⟨rfl, rfl⟩ := Program.returns_pure.mp hrest
          rename_i hfull
          rw [if_pos hfull] at hwriting
          rw [List.append_nil]
          exact hwriting
        · obtain ⟨rfl, rfl⟩ := Program.returns_pure.mp hrest
          rename_i hpartial
          rw [if_neg hpartial] at hwriting
          rw [List.append_nil]
          exact hwriting
    | error errno =>
        obtain ⟨rfl, rfl⟩ := Program.returns_pure.mp hrest
        rw [List.append_nil]
        exact .refused errno hpushed
  · exact absurd h Program.returns_panic

/-- An attempt does not panic unless more bytes than there are were reported as written. -/
theorem write_neverPanics {operation : Operation σ}
    (h : operation.transferred ≤ operation.buffer.length) : (write operation).NeverPanics := by
  unfold write
  rw [if_pos h]
  refine (writeBytes_neverPanics _ _).bind fun answer => ?_
  obtain ⟨pushed, result⟩ := answer
  cases result with
  | ok count =>
      dsimp only
      split <;> exact Program.neverPanics_pure _
  | error errno => exact Program.neverPanics_pure _

/-- An attempt leaves the ticket of its operation alone. -/
theorem attempt_ticket {direction : Direction} {operation changed : Operation σ}
    {attempt : Attempt} {exchanges : List (Exchange σ)}
    (h : (Transfer.attempt direction operation).Returns exchanges (changed, attempt)) :
    changed.ticket = operation.ticket := by
  cases direction with
  | read =>
      generalize hanswer : (changed, attempt) = answer at h
      cases read_cases h <;> cases hanswer <;> rfl
  | write =>
      generalize hanswer : (changed, attempt) = answer at h
      cases write_cases h with
      | accepted count hpushed | refused errno hpushed =>
          cases hanswer
          exact hpushed.same.1

end Transfer

end Proactor
