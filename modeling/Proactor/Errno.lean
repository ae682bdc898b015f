/-!
# Error numbers

The error numbers that system calls report, with the text and the kind that
readers of an error message see. The catalogue describes a part of the system's
error numbers. Numbers without an entry are legal, but they are not described:
they get a text made from the number itself and no kind, whatever text and kind
the system has for them. No decision depends on that: the kinds that are looked
at are those of a call that would have to wait and of an interrupted one. Each
is the kind of a single number (`kind_eq_wouldBlock_iff` and
`kind_eq_interrupted_iff`).
-/

namespace Proactor

/-- A number by which the operating system says why a call failed. -/
structure Errno where
  code : Int
  deriving DecidableEq, Repr

namespace Errno

/-- The portable classes into which error numbers fall. -/
inductive Kind where
  | permissionDenied
  | notFound
  | interrupted
  | inputOutput
  | wouldBlock
  | outOfMemory
  | alreadyExists
  | invalidInput
  | tooManyOpenFiles
  | fileTooLarge
  | storageFull
  | brokenPipe
  | connectionAborted
  | connectionReset
  | notConnected
  | timedOut
  | connectionRefused
  | uncategorized
  deriving DecidableEq, Repr

/-- The spelling of a kind in debugging output. -/
def Kind.label : Kind → String
  | .permissionDenied => "PermissionDenied"
  | .notFound => "NotFound"
  | .interrupted => "Interrupted"
  | .inputOutput => "InputOutputError"
  | .wouldBlock => "WouldBlock"
  | .outOfMemory => "OutOfMemory"
  | .alreadyExists => "AlreadyExists"
  | .invalidInput => "InvalidInput"
  | .tooManyOpenFiles => "TooManyOpenFiles"
  | .fileTooLarge => "FileTooLarge"
  | .storageFull => "StorageFull"
  | .brokenPipe => "BrokenPipe"
  | .connectionAborted => "ConnectionAborted"
  | .connectionReset => "ConnectionReset"
  | .notConnected => "NotConnected"
  | .timedOut => "TimedOut"
  | .connectionRefused => "ConnectionRefused"
  | .uncategorized => "Uncategorized"

/-- No such file, or no such registration. -/
def noEntry : Errno := ⟨2⟩

/-- A signal ended the call before it did anything. -/
def interrupted : Errno := ⟨4⟩

/-- The descriptor is not open. -/
def badDescriptor : Errno := ⟨9⟩

/-- The call would have to wait. -/
def wouldBlock : Errno := ⟨11⟩

/-- The registration exists already. -/
def alreadyExists : Errno := ⟨17⟩

/-- A socket call was made on something else. -/
def notSocket : Errno := ⟨88⟩

/-- The described error numbers, each with its text and its kind. The system has others, such as
16 for a busy device, whose text and kind are not described here. -/
def catalogue : List (Int × String × Kind) :=
  [(1, "Operation not permitted", .permissionDenied),
   (2, "No such file or directory", .notFound),
   (3, "No such process", .uncategorized),
   (4, "Interrupted system call", .interrupted),
   (5, "Input/output error", .inputOutput),
   (6, "No such device or address", .uncategorized),
   (9, "Bad file descriptor", .uncategorized),
   (11, "Resource temporarily unavailable", .wouldBlock),
   (12, "Cannot allocate memory", .outOfMemory),
   (13, "Permission denied", .permissionDenied),
   (14, "Bad address", .uncategorized),
   (17, "File exists", .alreadyExists),
   (22, "Invalid argument", .invalidInput),
   (23, "Too many open files in system", .tooManyOpenFiles),
   (24, "Too many open files", .tooManyOpenFiles),
   (27, "File too large", .fileTooLarge),
   (28, "No space left on device", .storageFull),
   (32, "Broken pipe", .brokenPipe),
   (88, "Socket operation on non-socket", .uncategorized),
   (103, "Software caused connection abort", .connectionAborted),
   (104, "Connection reset by peer", .connectionReset),
   (107, "Transport endpoint is not connected", .notConnected),
   (110, "Connection timed out", .timedOut),
   (111, "Connection refused", .connectionRefused)]

/-- The sentence for a described error number. Of any other number the sentence only quotes it, in
place of the system's own text. -/
def text (errno : Errno) : String :=
  match catalogue.lookup errno.code with
  | some (sentence, _) => sentence
  | none => "Unknown error " ++ toString errno.code

/-- The class of a described error number. Any other number is left without a class of its own. -/
def kind (errno : Errno) : Kind :=
  match catalogue.lookup errno.code with
  | some (_, kind) => kind
  | none => .uncategorized

/-- The conditions under which an attempt is repeated later instead of failing. -/
def isTransient (errno : Errno) : Bool :=
  errno.kind = .wouldBlock || errno.kind = .interrupted

/-- A number with a class of its own is in the catalogue. -/
theorem mem_catalogue {errno : Errno} {kind : Kind} (h : errno.kind = kind)
    (hkind : kind ≠ .uncategorized) : ∃ sentence, (errno.code, sentence, kind) ∈ catalogue := by
  unfold Errno.kind at h
  split at h
  next sentence described hentry =>
    obtain ⟨before, after, hsplit, -⟩ := List.lookup_eq_some_iff.mp hentry
    subst h
    exact ⟨sentence, by simp [hsplit]⟩
  next => exact absurd h.symm hkind

/-- In the catalogue only 11 says that a call would have to wait, and only 4 that a signal ended
it. -/
theorem code_of_mem_catalogue : ∀ entry ∈ catalogue,
    (entry.2.2 = .wouldBlock → entry.1 = 11) ∧ (entry.2.2 = .interrupted → entry.1 = 4) := by
  decide

/-- Exactly the number 11 says that a call would have to wait. -/
theorem kind_eq_wouldBlock_iff {errno : Errno} : errno.kind = .wouldBlock ↔ errno.code = 11 := by
  constructor
  · intro hkind
    obtain ⟨sentence, hentry⟩ := mem_catalogue hkind (by decide)
    exact (code_of_mem_catalogue _ hentry).1 rfl
  · obtain ⟨code⟩ := errno
    rintro rfl
    rfl

/-- Exactly the number 4 says that a signal ended a call. -/
theorem kind_eq_interrupted_iff {errno : Errno} : errno.kind = .interrupted ↔ errno.code = 4 := by
  constructor
  · intro hkind
    obtain ⟨sentence, hentry⟩ := mem_catalogue hkind (by decide)
    exact (code_of_mem_catalogue _ hentry).2 rfl
  · obtain ⟨code⟩ := errno
    rintro rfl
    rfl

/-- An attempt is repeated later if and only if its call would have to wait (11) or was ended by a
signal (4). -/
theorem isTransient_iff {errno : Errno} :
    errno.isTransient = true ↔ errno.code = 11 ∨ errno.code = 4 := by
  rw [isTransient, Bool.or_eq_true, decide_eq_true_iff, decide_eq_true_iff,
    kind_eq_wouldBlock_iff, kind_eq_interrupted_iff]

end Errno

end Proactor
