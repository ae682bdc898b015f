import Proactor.FdMap

/-!
# Ownership of watched handles

A dispatch loop knows descriptors only. The custody keeps the handle that owns
a descriptor from the moment it is watched until it is given up, so that the
descriptor's number cannot be reused meanwhile. Handles that leave the custody
are returned, to be released by the caller.
-/

namespace Proactor

/-- A handle that the reactor can take ownership of. -/
structure Handle where
  name : String
  descriptor : Option Fd
  deriving DecidableEq

namespace Handle

/-- A handle that owns a descriptor. A negative number means that there is none. -/
def owning (name : String) (fd : Fd) : Handle :=
  ⟨name, if fd.isNegative then none else some fd⟩

/-- A handle that exposes the given number as it is. -/
def exposing (name : String) (fd : Fd) : Handle :=
  ⟨name, some fd⟩

/-- A handle without a descriptor. -/
def detached (name : String) : Handle :=
  ⟨name, none⟩

end Handle

/-- The watched handles, each under its descriptor. -/
structure Custody where
  handles : FdMap Handle

namespace Custody

/-- The custody without handles. -/
def empty : Custody :=
  ⟨FdMap.empty⟩

/-- Keep a handle under a descriptor. The handle kept there before comes back. -/
def insert (custody : Custody) (fd : Fd) (handle : Handle) : Option Handle × Custody :=
  (custody.handles.get? fd, ⟨custody.handles.insert fd handle⟩)

/-- Give up the handle under a descriptor, which comes back. -/
def remove (custody : Custody) (fd : Fd) : Option Handle × Custody :=
  (custody.handles.get? fd, ⟨custody.handles.erase fd⟩)

/-- Whether a handle is kept under a descriptor. -/
def contains (custody : Custody) (fd : Fd) : Bool :=
  custody.handles.contains fd

/-- The number of handles kept. -/
def size (custody : Custody) : Nat :=
  custody.handles.size

/-- All handles kept. -/
def all (custody : Custody) : List Handle :=
  custody.handles.values

end Custody

end Proactor
