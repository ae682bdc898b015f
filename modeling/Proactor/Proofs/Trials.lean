import Proactor.Proofs.Transfers

/-!
# The attempts on one operation

An operation is attempted once for each time it is checked out. An attempt to
read is one read of the whole buffer. The attempts on a write use socket calls
until one of them is refused because the descriptor is no socket; the plain
write follows at once, and every later attempt is a plain write. `Trials` is the
language of these attempts. It keeps the mark that chooses between the two calls
and the number of bytes out, so each call is seen to ask for all bytes that are
left.
-/

namespace Proactor

variable {σ : Type}

namespace Transfer

/-! ## One attempt to write -/

/-- The number of bytes that an answer to a write reports. -/
def moved : Except Errno Nat → Nat
  | .ok count => count
  | .error _ => 0

/-- How writing bytes once depends on the mark of the operation, and what becomes of the mark. -/
inductive Sending (operation : Operation σ) (bytes : Bytes) :
    List (Exchange σ) → Operation σ → Except Errno Nat → Prop where
  | plain (hmark : operation.notSocket = true) (answer : Except Errno Nat) :
      Sending operation bytes [⟨.write operation.fd bytes, answer⟩] operation answer
  | socket (hmark : operation.notSocket = false) (answer : Except Errno Nat)
      (hanswer : answer ≠ .error .notSocket) :
      Sending operation bytes [⟨.send operation.fd bytes, answer⟩] operation answer
  | fallback (hmark : operation.notSocket = false) (answer : Except Errno Nat) :
      Sending operation bytes
        [⟨.send operation.fd bytes, .error .notSocket⟩, ⟨.write operation.fd bytes, answer⟩]
        { operation with notSocket := true } answer

/-- The attempt that an answer to a write comes to. -/
def outcome (operation : Operation σ) : Except Errno Nat → Attempt
  | .ok count =>
      if operation.transferred + count = operation.buffer.length then .finished none else .retry
  | .error errno => failed (.system errno)

/-- The calls with which bytes are written once are listed in `Sending`. -/
theorem writeBytes_sending {operation pushed : Operation σ} {bytes : Bytes}
    {exchanges : List (Exchange σ)} {answer : Except Errno Nat}
    (h : (writeBytes operation bytes).Returns exchanges (pushed, answer)) :
    Sending operation bytes exchanges pushed answer := by
  unfold writeBytes at h
  split at h
  · rename_i hmark
    obtain ⟨result, rest, rfl, hrest⟩ := Program.returns_ask_bind.mp h
    obtain ⟨rfl, hvalue⟩ := Program.returns_pure.mp hrest
    cases hvalue
    exact .plain hmark answer
  · rename_i hmark
    obtain ⟨result, rest, rfl, hrest⟩ := Program.returns_ask_bind.mp h
    have hmark : operation.notSocket = false := Bool.eq_false_iff.mpr hmark
    cases result with
    | ok count =>
        obtain ⟨rfl, hvalue⟩ := Program.returns_pure.mp hrest
        cases hvalue
        exact .socket hmark (.ok count) (by simp)
    | error errno =>
        by_cases herrno : errno = .notSocket
        · subst herrno
          obtain ⟨result, last, rfl, hlast⟩ := Program.returns_ask_bind.mp hrest
          obtain ⟨rfl, hvalue⟩ := Program.returns_pure.mp hlast
          cases hvalue
          exact .fallback hmark answer
        · simp only [herrno, if_false] at hrest
          obtain ⟨rfl, hvalue⟩ := Program.returns_pure.mp hrest
          cases hvalue
          exact .socket hmark (.error errno) (by simpa using herrno)

/-- Writing bytes once leaves everything but the mark alone. -/
theorem Sending.same {operation pushed : Operation σ} {bytes : Bytes}
    {exchanges : List (Exchange σ)} {answer : Except Errno Nat}
    (h : Sending operation bytes exchanges pushed answer) :
    pushed = { operation with notSocket := pushed.notSocket } := by
  cases h <;> rfl

/-- What an attempt to write comes to, in terms of the answer to its last call. -/
theorem write_sending {operation changed : Operation σ} {exchanges : List (Exchange σ)}
    {attempt : Attempt} (h : (write operation).Returns exchanges (changed, attempt)) :
    ∃ pushed answer,
      Sending operation (operation.buffer.drop operation.transferred) exchanges pushed answer ∧
        changed = { pushed with transferred := operation.transferred + moved answer } ∧
        attempt = outcome operation answer := by
  unfold write at h
  split at h
  · obtain ⟨⟨pushed, answer⟩, before, after, rfl, hpush, hrest⟩ := Program.returns_bind.mp h
    have hsending := writeBytes_sending hpush
    have hsame := hsending.same
    refine ⟨pushed, answer, ?_⟩
    cases answer with
    | ok count =>
        -- the count and the buffer are read again after the call, which has left them alone
        have htransferred : pushed.transferred = operation.transferred := by rw [hsame]
        have hbuffer : pushed.buffer = operation.buffer := by rw [hsame]
        dsimp only at hrest
        split at hrest
        · rename_i hfull
          obtain ⟨rfl, hvalue⟩ := Program.returns_pure.mp hrest
          cases hvalue
          rw [htransferred, hbuffer] at hfull
          rw [List.append_nil, htransferred]
          exact ⟨hsending, rfl, (if_pos hfull).symm⟩
        · rename_i hpartial
          obtain ⟨rfl, hvalue⟩ := Program.returns_pure.mp hrest
          cases hvalue
          rw [htransferred, hbuffer] at hpartial
          rw [List.append_nil, htransferred]
          exact ⟨hsending, rfl, (if_neg hpartial).symm⟩
    | error errno =>
        obtain ⟨rfl, hvalue⟩ := Program.returns_pure.mp hrest
        cases hvalue
        rw [List.append_nil]
        refine ⟨hsending, ?_, rfl⟩
        have htransferred : changed.transferred = operation.transferred := by rw [hsame]
        rw [moved, Nat.add_zero, ← htransferred]
  · exact absurd h Program.returns_panic

end Transfer

/-! ## All attempts -/

/-- The attempts on a write so far, the first one first, with the mark and the number of bytes out
that they have led to. -/
inductive Trials (fd : Fd) (buffer : Bytes) : List (List (Exchange σ)) → Bool → Nat → Prop where
  | fresh : Trials fd buffer [] false 0
  | socket {tries : List (List (Exchange σ))} {transferred : Nat}
      (h : Trials fd buffer tries false transferred) (answer : Except Errno Nat)
      (hanswer : answer ≠ .error .notSocket) :
      Trials fd buffer (tries ++ [[⟨.send fd (buffer.drop transferred), answer⟩]]) false
        (transferred + Transfer.moved answer)
  | fallback {tries : List (List (Exchange σ))} {transferred : Nat}
      (h : Trials fd buffer tries false transferred) (answer : Except Errno Nat) :
      Trials fd buffer
        (tries ++ [[⟨.send fd (buffer.drop transferred), .error .notSocket⟩,
          ⟨.write fd (buffer.drop transferred), answer⟩]]) true
        (transferred + Transfer.moved answer)
  | plain {tries : List (List (Exchange σ))} {transferred : Nat}
      (h : Trials fd buffer tries true transferred) (answer : Except Errno Nat) :
      Trials fd buffer (tries ++ [[⟨.write fd (buffer.drop transferred), answer⟩]]) true
        (transferred + Transfer.moved answer)

/-- An attempt that is a socket call for the bytes that are left. -/
def SocketTry (fd : Fd) (buffer : Bytes) (calls : List (Exchange σ)) : Prop :=
  ∃ transferred answer, answer ≠ .error .notSocket ∧
    calls = [⟨.send fd (buffer.drop transferred), answer⟩]

/-- An attempt whose socket call is refused because the descriptor is no socket. -/
def FallbackTry (fd : Fd) (buffer : Bytes) (calls : List (Exchange σ)) : Prop :=
  ∃ transferred answer,
    calls = [⟨.send fd (buffer.drop transferred), .error .notSocket⟩,
      ⟨.write fd (buffer.drop transferred), answer⟩]

/-- An attempt that is a plain write of the bytes that are left. -/
def PlainTry (fd : Fd) (buffer : Bytes) (calls : List (Exchange σ)) : Prop :=
  ∃ transferred answer, calls = [⟨.write fd (buffer.drop transferred), answer⟩]

/-- The attempts in order: socket calls, and plain writes from the one socket call on that was
refused because the descriptor is no socket. -/
inductive Phases (fd : Fd) (buffer : Bytes) : Bool → List (List (Exchange σ)) → Prop where
  | socket {sends : List (List (Exchange σ))}
      (hsends : ∀ calls ∈ sends, SocketTry fd buffer calls) : Phases fd buffer false sends
  | plain {sends writes : List (List (Exchange σ))} {fallback : List (Exchange σ)}
      (hsends : ∀ calls ∈ sends, SocketTry fd buffer calls)
      (hfallback : FallbackTry fd buffer fallback)
      (hwrites : ∀ calls ∈ writes, PlainTry fd buffer calls) :
      Phases fd buffer true (sends ++ fallback :: writes)

namespace Trials

variable {fd : Fd} {buffer : Bytes} {tries : List (List (Exchange σ))} {mark : Bool}
  {transferred : Nat}

/-- The mark tells the two phases of a write apart. -/
theorem phases (h : Trials fd buffer tries mark transferred) : Phases fd buffer mark tries := by
  induction h with
  | fresh => exact .socket (List.forall_mem_nil _)
  | socket h answer hanswer ih =>
      cases ih with
      | socket hsends =>
          exact .socket (List.forall_mem_append.mpr
            ⟨hsends, List.forall_mem_singleton.mpr ⟨_, answer, hanswer, rfl⟩⟩)
  | fallback h answer ih =>
      cases ih with
      | socket hsends => exact .plain hsends ⟨_, answer, rfl⟩ (List.forall_mem_nil _)
  | plain h answer ih =>
      cases ih with
      | plain hsends hfallback hwrites =>
          rw [List.append_assoc, List.cons_append]
          exact .plain hsends hfallback (List.forall_mem_append.mpr
            ⟨hwrites, List.forall_mem_singleton.mpr ⟨_, answer, rfl⟩⟩)

/-- No more bytes are out than the buffer has, if the system accepts no more than it is given. -/
theorem transferred_le (h : Trials fd buffer tries mark transferred)
    (hsound : ∀ calls ∈ tries, ∀ exchange ∈ calls, exchange.AcceptsAtMost) :
    transferred ≤ buffer.length := by
  have hmoved : ∀ {before : Nat} {answer : Except Errno Nat}, before ≤ buffer.length →
      (∀ count, answer = .ok count → count ≤ (buffer.drop before).length) →
      before + Transfer.moved answer ≤ buffer.length := by
    intro before answer hbefore hanswer
    cases answer with
    | error errno => exact hbefore
    | ok count =>
        have hcount := hanswer count rfl
        rw [List.length_drop] at hcount
        show before + count ≤ buffer.length
        omega
  induction h with
  | fresh => exact Nat.zero_le _
  | socket h answer hanswer ih | plain h answer ih =>
      obtain ⟨hearlier, hlast⟩ := List.forall_mem_append.mp hsound
      refine hmoved (ih hearlier) ?_
      rintro count rfl
      exact hlast _ (List.mem_singleton_self _) _ (List.mem_singleton_self _)
  | fallback h answer ih =>
      obtain ⟨hearlier, hlast⟩ := List.forall_mem_append.mp hsound
      refine hmoved (ih hearlier) ?_
      rintro count rfl
      exact hlast _ (List.mem_singleton_self _) _
        (List.mem_cons_of_mem _ (List.mem_singleton_self _))

/-- The next attempt on a write goes on where the last one stopped. -/
theorem sending {operation pushed : Operation σ} {calls : List (Exchange σ)}
    {answer : Except Errno Nat}
    (h : Trials operation.fd operation.buffer tries operation.notSocket operation.transferred)
    (hsending : Transfer.Sending operation (operation.buffer.drop operation.transferred) calls
      pushed answer) :
    Trials operation.fd operation.buffer (tries ++ [calls]) pushed.notSocket
      (operation.transferred + Transfer.moved answer) := by
  cases hsending with
  | plain hmark =>
      rw [hmark] at h ⊢
      exact h.plain answer
  | socket hmark _ hanswer =>
      rw [hmark] at h ⊢
      exact h.socket answer hanswer
  | fallback hmark =>
      rw [hmark] at h
      exact h.fallback answer

end Trials

/-! ## Both directions -/

/-- The attempts on an operation as they ought to be, with the mark and the number of bytes out
that those on a write have led to. -/
def Lawful (direction : Direction) (fd : Fd) (buffer : Bytes) (tries : List (List (Exchange σ)))
    (mark : Bool) (transferred : Nat) : Prop :=
  match direction with
  | .read => ∀ calls ∈ tries, ∃ answer, calls = [⟨.read fd buffer.length, answer⟩]
  | .write => Trials fd buffer tries mark transferred

/-- The attempts on this operation are as they ought to be. -/
def Operation.Lawful (operation : Operation σ) (direction : Direction)
    (tries : List (List (Exchange σ))) : Prop :=
  Proactor.Lawful direction operation.fd operation.buffer tries operation.notSocket
    operation.transferred

/-- An operation without attempts has had none that ought not to be. -/
theorem Lawful.fresh {direction : Direction} {fd : Fd} {buffer : Bytes} :
    Lawful (σ := σ) direction fd buffer [] false 0 := by
  cases direction with
  | read => exact List.forall_mem_nil _
  | write => exact Trials.fresh

section Attempt

variable {direction : Direction} {operation changed : Operation σ}
  {tries : List (List (Exchange σ))} {calls : List (Exchange σ)} {attempt : Attempt}

/-- One more attempt is as it ought to be. -/
theorem Operation.Lawful.tried (h : operation.Lawful direction tries)
    (hattempt : (Transfer.attempt direction operation).Returns calls (changed, attempt)) :
    ∃ mark transferred, Proactor.Lawful direction operation.fd operation.buffer
      (tries ++ [calls]) mark transferred := by
  cases direction with
  | read =>
      generalize hanswer : (changed, attempt) = answer at hattempt
      refine ⟨false, 0, List.forall_mem_append.mpr ⟨h, List.forall_mem_singleton.mpr ?_⟩⟩
      cases Transfer.read_cases hattempt with
      | arrived bytes => exact ⟨.ok bytes, rfl⟩
      | refused errno => exact ⟨.error errno, rfl⟩
  | write =>
      obtain ⟨pushed, answer, hsending, -, -⟩ := Transfer.write_sending hattempt
      exact ⟨_, _, Trials.sending h hsending⟩

/-- An operation that is to be attempted again carries on what its attempts have led to. -/
theorem Operation.Lawful.retry (h : operation.Lawful direction tries)
    (hattempt : (Transfer.attempt direction operation).Returns calls (changed, .retry)) :
    changed.Lawful direction (tries ++ [calls]) ∧ changed.ticket = operation.ticket ∧
      changed.buffer = operation.buffer := by
  cases direction with
  | read =>
      generalize hanswer : (changed, Attempt.retry) = answer at hattempt
      cases Transfer.read_cases hattempt with
      | arrived bytes => cases hanswer
      | refused errno =>
          obtain rfl : changed = operation := congrArg Prod.fst hanswer
          refine ⟨List.forall_mem_append.mpr ⟨h, List.forall_mem_singleton.mpr ?_⟩, rfl, rfl⟩
          exact ⟨.error errno, rfl⟩
  | write =>
      obtain ⟨pushed, answer, hsending, rfl, -⟩ := Transfer.write_sending hattempt
      have hsame := hsending.same
      have htrials := Trials.sending h hsending
      refine ⟨?_, ?_, ?_⟩
      · show Trials pushed.fd pushed.buffer _ pushed.notSocket _
        have hfd : pushed.fd = operation.fd := by rw [hsame]
        have hbuffer : pushed.buffer = operation.buffer := by rw [hsame]
        rw [hfd, hbuffer]
        exact htrials
      · show Ticket.mk pushed.fd pushed.sink = _
        rw [hsame]
        rfl
      · show pushed.buffer = _
        rw [hsame]

/-- An operation whose attempts are as they ought to be can be attempted without a panic. -/
theorem Operation.Lawful.safe (h : operation.Lawful direction tries)
    (hsound : ∀ calls ∈ tries, ∀ exchange ∈ calls, exchange.AcceptsAtMost) :
    (Transfer.attempt direction operation).NeverPanics := by
  cases direction with
  | read => exact Transfer.read_neverPanics operation
  | write => exact Transfer.write_neverPanics (Trials.transferred_le h hsound)

/-- A write fails as one on something else than a socket only when its plain write does. -/
theorem Transfer.write_notSocket
    (hattempt : (Transfer.write operation).Returns calls
      (changed, .finished (some (.system .notSocket)))) :
    ∃ bytes, calls.getLast? = some ⟨.write operation.fd bytes, .error .notSocket⟩ := by
  obtain ⟨pushed, answer, hsending, -, houtcome⟩ := Transfer.write_sending hattempt
  have hanswer : answer = .error .notSocket := by
    cases answer with
    | ok count =>
        dsimp only [outcome] at houtcome
        split at houtcome <;> cases houtcome
    | error errno =>
        dsimp only [outcome, failed] at houtcome
        split at houtcome
        · cases houtcome
        · cases houtcome
          rfl
  subst hanswer
  cases hsending with
  | plain => exact ⟨_, rfl⟩
  | socket _ _ hother => exact absurd rfl hother
  | fallback => exact ⟨_, rfl⟩

end Attempt

end Proactor
