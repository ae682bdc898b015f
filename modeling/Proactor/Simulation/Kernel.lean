import Proactor.Request

/-!
# A simulated operating system

The system calls of the reactor, answered from a state that a scenario
prepares. New descriptors are numbered from 500; all other descriptors are open
sockets until a scenario says otherwise. Transfers and waits follow scripts, and
calls of most kinds can be made to fail in advance. A scripted transfer or wait
may carry actions of the scenario that take place while the call is under way;
their type `α` is left open here.
-/

namespace Proactor.Simulation

/-- The kinds of calls that can be made to fail in advance. -/
inductive CallKind where
  | openSource
  | openPipe
  | add
  | modify
  | delete
  | close
  | getFlags
  | setFlags
  | wakeWrite
  | wakeRead
  | thread
  deriving DecidableEq

/-- The transfers that follow scripts. -/
inductive TransferKind where
  | read
  | send
  | write
  deriving DecidableEq

/-- What a scripted transfer comes to: bytes to read, a number of bytes to accept or to read as
zeros, or a failure. The bytes are described by a value of type `δ`. -/
inductive TransferResult (δ : Type) where
  | data (bytes : δ)
  | count (count : Nat)
  | fails (errno : Errno)

/-- The same result with its bytes described in another way. -/
def TransferResult.map {δ ε : Type} (describe : δ → ε) : TransferResult δ → TransferResult ε
  | .data content => .data (describe content)
  | .count number => .count number
  | .fails code => .fails code

/-- A scripted transfer and the actions that take place during it. -/
structure ScriptedTransfer (δ α : Type) where
  result : TransferResult δ
  during : List α

/-- A scripted wait and the actions that take place during it. -/
structure ScriptedWait (α : Type) where
  result : Except Errno (List RawEvent)
  during : List α

/-- A registration of a descriptor with a readiness source. -/
structure Registration where
  source : Fd
  fd : Fd
  event : RawEvent

/-- Whether a registration is that of a descriptor with a source. -/
def Registration.isOf (entry : Registration) (source fd : Fd) : Bool :=
  entry.source = source && entry.fd = fd

/-- A pipe and the number of bytes in it. -/
structure Pipe where
  readEnd : Fd
  writeEnd : Fd
  held : Nat

/-- The state of the simulated operating system. -/
structure Kernel (α : Type) where
  nextNumber : Nat
  newestSource : Option Fd
  closed : List Fd
  notSockets : List Fd
  registrations : List Registration
  pipes : List Pipe
  flags : FdMap Int32
  reads : FdMap (List (ScriptedTransfer Bytes α))
  sends : FdMap (List (ScriptedTransfer Bytes α))
  writes : FdMap (List (ScriptedTransfer Bytes α))
  waits : FdMap (List (ScriptedWait α))
  failures : List (CallKind × Int)
  clock : Instant

namespace Kernel

variable {α : Type}

/-- The system at the beginning of a scenario. -/
def initial : Kernel α where
  nextNumber := 500
  newestSource := none
  closed := []
  notSockets := []
  registrations := []
  pipes := []
  flags := .empty
  reads := .empty
  sends := .empty
  writes := .empty
  waits := .empty
  failures := []
  clock := ⟨0⟩

/-! ## What a scenario prepares -/

/-- Let following calls of a kind fail, one for each number. Zero lets a call pass. -/
def failNext (kernel : Kernel α) (kind : CallKind) (codes : List Int) : Kernel α :=
  { kernel with failures := kernel.failures ++ codes.map fun code => (kind, code) }

/-- The scripts of the transfers of a kind. -/
def scripts (kernel : Kernel α) : TransferKind → FdMap (List (ScriptedTransfer Bytes α))
  | .read => kernel.reads
  | .send => kernel.sends
  | .write => kernel.writes

/-- The system with the script of one descriptor changed. -/
def withScript (kernel : Kernel α) (kind : TransferKind) (fd : Fd)
    (script : List (ScriptedTransfer Bytes α)) : Kernel α :=
  match kind with
  | .read => { kernel with reads := kernel.reads.insert fd script }
  | .send => { kernel with sends := kernel.sends.insert fd script }
  | .write => { kernel with writes := kernel.writes.insert fd script }

/-- The script of the transfers of a kind on a descriptor. -/
def script (kernel : Kernel α) (kind : TransferKind) (fd : Fd) : List (ScriptedTransfer Bytes α) :=
  ((kernel.scripts kind).get? fd).getD []

/-- Append to a script. -/
def extendScript (kernel : Kernel α) (kind : TransferKind) (fd : Fd)
    (steps : List (ScriptedTransfer Bytes α)) : Kernel α :=
  kernel.withScript kind fd (kernel.script kind fd ++ steps)

/-- The waits that are scripted for a source. -/
def scriptedWaits (kernel : Kernel α) (source : Fd) : List (ScriptedWait α) :=
  (kernel.waits.get? source).getD []

/-- Append to the waits of a source. -/
def extendWaits (kernel : Kernel α) (source : Fd) (steps : List (ScriptedWait α)) : Kernel α :=
  { kernel with waits := kernel.waits.insert source (kernel.scriptedWaits source ++ steps) }

/-- The registrations of a descriptor vanish. -/
def forget (kernel : Kernel α) (fd : Fd) : Kernel α :=
  { kernel with registrations := kernel.registrations.filter fun entry => entry.fd ≠ fd }

/-- The file behind a descriptor is closed. -/
def closeFile (kernel : Kernel α) (fd : Fd) : Kernel α :=
  let kernel := kernel.forget fd
  { kernel with closed := fd :: kernel.closed.filter fun other => other ≠ fd }

/-- A descriptor is open again. -/
def openFile (kernel : Kernel α) (fd : Fd) : Kernel α :=
  { kernel with closed := kernel.closed.filter fun other => other ≠ fd }

/-- A descriptor stands for something other than a socket. -/
def markNotSocket (kernel : Kernel α) (fd : Fd) : Kernel α :=
  { kernel with notSockets := fd :: kernel.notSockets }

/-- Give a descriptor its status flags. -/
def giveFlags (kernel : Kernel α) (fd : Fd) (flags : Int32) : Kernel α :=
  { kernel with flags := kernel.flags.insert fd flags }

/-- Time passes. -/
def advance (kernel : Kernel α) (duration : Duration) : Kernel α :=
  { kernel with clock := ⟨kernel.clock.nanoseconds + duration.nanoseconds⟩ }

/-! ## Failures and open descriptors -/

/-- The entry for the next call of a kind, and the entries after it is used up. -/
def firstFailure (kind : CallKind) :
    List (CallKind × Int) → Option Int × List (CallKind × Int)
  | [] => (none, [])
  | entry :: rest =>
      if entry.1 = kind then (some entry.2, rest)
      else
        let (found, remaining) := firstFailure kind rest
        (found, entry :: remaining)

/-- The failure that was prepared for this call of a kind, if there was one. -/
def takeFailure (kernel : Kernel α) (kind : CallKind) : Option Errno × Kernel α :=
  let (found, failures) := firstFailure kind kernel.failures
  let errno :=
    match found with
    | none => none
    | some code => if code = 0 then none else some ⟨code⟩
  (errno, { kernel with failures })

/-- Whether a descriptor is open. Negative numbers are not. -/
def isOpen (kernel : Kernel α) (fd : Fd) : Bool :=
  !fd.isNegative && !kernel.closed.contains fd

/-! ## Opening and closing -/

/-- The descriptor with a number. -/
def numbered (number : Nat) : Fd :=
  ⟨Int32.ofNat number⟩

/-- Open a readiness source. -/
def openSource (kernel : Kernel α) : Except Errno Fd × Kernel α :=
  match kernel.takeFailure .openSource with
  | (some errno, kernel) => (.error errno, kernel)
  | (none, kernel) =>
      let source := numbered kernel.nextNumber
      (.ok source,
        { kernel with nextNumber := kernel.nextNumber + 1, newestSource := some source })

/-- Open a pipe. -/
def openPipe (kernel : Kernel α) : Except Errno (Fd × Fd) × Kernel α :=
  match kernel.takeFailure .openPipe with
  | (some errno, kernel) => (.error errno, kernel)
  | (none, kernel) =>
      let readEnd := numbered kernel.nextNumber
      let writeEnd := numbered (kernel.nextNumber + 1)
      (.ok (readEnd, writeEnd),
        { kernel with
          nextNumber := kernel.nextNumber + 2
          pipes := kernel.pipes ++ [⟨readEnd, writeEnd, 0⟩] })

/-- Close a descriptor. It is closed also when the call is made to fail. -/
def close (kernel : Kernel α) (fd : Fd) : Except Errno Unit × Kernel α :=
  match kernel.takeFailure .close with
  | (some errno, kernel) => (.error errno, kernel.closeFile fd)
  | (none, kernel) => (.ok (), kernel.closeFile fd)

/-! ## Registrations -/

/-- The kind of call that a change of a registration is. -/
def changeKind : Control → CallKind
  | .add _ _ => .add
  | .modify _ _ => .modify
  | .delete _ => .delete

/-- The descriptor whose registration is changed. -/
def changedFd : Control → Fd
  | .add fd _ => fd
  | .modify fd _ => fd
  | .delete fd => fd

/-- The registration of a descriptor with a source. -/
def registration? (kernel : Kernel α) (source fd : Fd) : Option Registration :=
  kernel.registrations.find? fun entry => entry.isOf source fd

/-- Make a change whose descriptors are open. -/
def applyChange (kernel : Kernel α) (source : Fd) (change : Control) :
    Except Errno Unit × Kernel α :=
  let fd := changedFd change
  let others := kernel.registrations.filter fun entry => !entry.isOf source fd
  match change, kernel.registration? source fd with
  | .add _ _, some _ => (.error .alreadyExists, kernel)
  | .add _ event, none => (.ok (), { kernel with registrations := ⟨source, fd, event⟩ :: others })
  | .modify _ event, some _ =>
      (.ok (), { kernel with registrations := ⟨source, fd, event⟩ :: others })
  | .modify _ _, none => (.error .noEntry, kernel)
  | .delete _, some _ => (.ok (), { kernel with registrations := others })
  | .delete _, none => (.error .noEntry, kernel)

/-- Change a registration. -/
def control (kernel : Kernel α) (source : Fd) (change : Control) :
    Except Errno Unit × Kernel α :=
  match kernel.takeFailure (changeKind change) with
  | (some errno, kernel) => (.error errno, kernel)
  | (none, kernel) =>
      if kernel.isOpen source && kernel.isOpen (changedFd change) then
        kernel.applyChange source change
      else (.error .badDescriptor, kernel)

/-! ## Waiting -/

/-- The wake-up that a source reports: that of the first pipe that is registered and has bytes
in it. -/
def wakeUp? (kernel : Kernel α) (source : Fd) : Option RawEvent :=
  (kernel.pipes.filter fun pipe => 0 < pipe.held).findSome? fun pipe =>
    (kernel.registration? source pipe.readEnd).map fun entry =>
      ⟨entry.event.key, EventMask.input⟩

/-- Take the next scripted wait of a source. -/
def takeWait (kernel : Kernel α) (source : Fd) : Option (ScriptedWait α) × Kernel α :=
  match kernel.scriptedWaits source with
  | [] => (none, kernel)
  | first :: rest => (some first, { kernel with waits := kernel.waits.insert source rest })

/-- The events that a scripted wait reports. What does not fit into the batch is reported by the
next wait. A batch that is not full takes up a wake-up. -/
def reportEvents (kernel : Kernel α) (source : Fd) (capacity : Nat) (events : List RawEvent) :
    List RawEvent × Kernel α :=
  let taken := events.take capacity
  let rest := events.drop capacity
  let kernel :=
    if rest.isEmpty then kernel
    else
      { kernel with
        waits := kernel.waits.insert source (⟨.ok rest, []⟩ :: kernel.scriptedWaits source) }
  if taken.length < capacity then (taken ++ (kernel.wakeUp? source).toList, kernel)
  else (taken, kernel)

/-- Whether a wait without a time limit returns at once. -/
def waitReturns (kernel : Kernel α) (source : Fd) : Bool :=
  !kernel.isOpen source || !(kernel.scriptedWaits source).isEmpty ||
    (kernel.wakeUp? source).isSome

/-- A wait for which nothing is scripted. With a time limit it reports at once what there is, and
no time passes; without one it cannot end, which only a closed source would explain. -/
def waitUnscripted (kernel : Kernel α) (source : Fd) (limited : Bool) :
    Except Errno (List RawEvent) :=
  match kernel.wakeUp? source with
  | some event => .ok [event]
  | none => if limited then .ok [] else .error .badDescriptor

/-! ## Transfers -/

/-- The pipe with a read end. -/
def pipeReadBy? (kernel : Kernel α) (fd : Fd) : Option Pipe :=
  kernel.pipes.find? fun pipe => pipe.readEnd = fd

/-- The pipe with a write end. -/
def pipeWrittenBy? (kernel : Kernel α) (fd : Fd) : Option Pipe :=
  kernel.pipes.find? fun pipe => pipe.writeEnd = fd

/-- Change the number of bytes in a pipe. -/
def withHeld (kernel : Kernel α) (pipe : Pipe) (held : Nat) : Kernel α :=
  { kernel with
    pipes := kernel.pipes.map fun other =>
      if other.readEnd = pipe.readEnd then { other with held } else other }

/-- Read from a pipe, which holds nothing but ones. -/
def readPipe (kernel : Kernel α) (pipe : Pipe) (count : Nat) : Except Errno Bytes × Kernel α :=
  match kernel.takeFailure .wakeRead with
  | (some errno, kernel) => (.error errno, kernel)
  | (none, kernel) =>
      if pipe.held = 0 then (.error .wouldBlock, kernel)
      else
        let taken := min count pipe.held
        (.ok (List.replicate taken 1), kernel.withHeld pipe (pipe.held - taken))

/-- Write to a pipe, which takes everything. -/
def writePipe (kernel : Kernel α) (pipe : Pipe) (bytes : Bytes) : Except Errno Nat × Kernel α :=
  match kernel.takeFailure .wakeWrite with
  | (some errno, kernel) => (.error errno, kernel)
  | (none, kernel) => (.ok bytes.length, kernel.withHeld pipe (pipe.held + bytes.length))

/-- Take the next scripted transfer of a descriptor. -/
def takeTransfer (kernel : Kernel α) (kind : TransferKind) (fd : Fd) :
    Option (ScriptedTransfer Bytes α) × Kernel α :=
  match kernel.script kind fd with
  | [] => (none, kernel)
  | first :: rest => (some first, kernel.withScript kind fd rest)

/-- The end of a read whose script step has been taken. Bytes for which there was no room are
read next. -/
def finishRead (kernel : Kernel α) (fd : Fd) (count : Nat)
    (result : Option (TransferResult Bytes)) : Except Errno Bytes × Kernel α :=
  if kernel.isOpen fd then
    match result with
    | none => (.error .wouldBlock, kernel)
    | some (.fails errno) => (.error errno, kernel)
    | some (.count zeros) => (.ok (List.replicate (min zeros count) 0), kernel)
    | some (.data bytes) =>
        let rest := bytes.drop count
        let kernel :=
          if rest.isEmpty then kernel
          else kernel.withScript .read fd (⟨.data rest, []⟩ :: kernel.script .read fd)
        (.ok (bytes.take count), kernel)
  else (.error .badDescriptor, kernel)

/-- The end of a send or a write whose script step has been taken. -/
def finishWrite (kernel : Kernel α) (kind : TransferKind) (fd : Fd) (count : Nat)
    (result : Option (TransferResult Bytes)) : Except Errno Nat :=
  if kernel.isOpen fd then
    match result with
    | none =>
        if kind = .send && kernel.notSockets.contains fd then .error .notSocket else .ok count
    | some (.fails errno) => .error errno
    | some (.count accepted) => .ok (min accepted count)
    | some (.data bytes) => .ok (min bytes.length count)
  else .error .badDescriptor

/-! ## Status flags -/

/-- The status flags of a descriptor. -/
def getFlags (kernel : Kernel α) (fd : Fd) : Except Errno Int32 × Kernel α :=
  match kernel.takeFailure .getFlags with
  | (some errno, kernel) => (.error errno, kernel)
  | (none, kernel) =>
      if kernel.isOpen fd then (.ok ((kernel.flags.get? fd).getD 2), kernel)
      else (.error .badDescriptor, kernel)

/-- Set the status flags of a descriptor. -/
def setFlags (kernel : Kernel α) (fd : Fd) (flags : Int32) : Except Errno Unit × Kernel α :=
  match kernel.takeFailure .setFlags with
  | (some errno, kernel) => (.error errno, kernel)
  | (none, kernel) =>
      if kernel.isOpen fd then (.ok (), kernel.giveFlags fd flags)
      else (.error .badDescriptor, kernel)

end Kernel

end Proactor.Simulation
