/-!
# Values behind a lock

A lock that a panicking holder leaves behind is taken over by the next holder
with the data as they were at the panic. A holder therefore always finds the
last state that any holder made.
-/

namespace Proactor

/-- A value behind a lock, with a mark left by a holder that panicked. -/
structure Guarded (α : Type) where
  value : α
  abandoned : Bool := false

namespace Guarded

variable {α : Type}

/-- What a holder leaves: the value as it changed it, and whether it panicked. -/
structure Hold (α : Type) where
  value : α
  panicked : Bool

/-- Take the lock and act on the value. The mark of an earlier panic does not matter. -/
def hold (guarded : Guarded α) (act : α → Hold α) : Bool × Guarded α :=
  let after := act guarded.value
  (after.panicked, ⟨after.value, guarded.abandoned || after.panicked⟩)

/-- A holder sees the same whether or not an earlier holder panicked. -/
theorem hold_ignores_abandoned (value : α) (first second : Bool) (act : α → Hold α) :
    ((Guarded.mk value first).hold act).1 = ((Guarded.mk value second).hold act).1 ∧
      ((Guarded.mk value first).hold act).2.value =
        ((Guarded.mk value second).hold act).2.value :=
  ⟨rfl, rfl⟩

end Guarded

end Proactor
