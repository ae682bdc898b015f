import Proactor.Simulation.Action

/-!
# The state of sinks

A channel holds completions in the order of their arrival until a receiver takes
them. Once the receiver is gone, nothing is accepted and nothing can be
received. A scripted sink remembers which answers it has left.
-/

namespace Proactor.Simulation

/-- What a sink remembers. -/
inductive Outlet where
  /-- It remembers nothing. -/
  | stateless
  /-- A channel, its contents, and whether its receiver is there. -/
  | channel (capacity : Option Nat) (queue : List Completion) (connected : Bool)
  /-- The answers left for plain and for timed offers. -/
  | scripted (offers timed : List ScriptedReception)

namespace Outlet

/-- A sink at the beginning of a scenario. -/
def ofSpec : SinkSpec → Outlet
  | .channel capacity => channel capacity [] true
  | .scripted offers timed => scripted offers (timed.getD [])
  | _ => stateless

/-- Whether a channel with these contents has room. -/
def hasRoom : Option Nat → List Completion → Bool
  | none, _ => true
  | some capacity, queue => queue.length < capacity

/-- Whether a completion would have to wait for room. -/
def isFull : Outlet → Bool
  | channel capacity queue true => !hasRoom capacity queue
  | _ => false

/-- Offer a completion to a channel. A channel without a receiver counts as disconnected even
when it has no room. -/
def offerChannel (capacity : Option Nat) (queue : List Completion) (connected : Bool)
    (completion : Completion) : Reception × Outlet :=
  if !connected then (.disconnected completion, channel capacity queue connected)
  else if hasRoom capacity queue then
    (.accepted, channel capacity (queue ++ [completion]) connected)
  else (.full completion, channel capacity queue connected)

/-- Take one completion out of a channel. -/
def receive : Outlet → Option Completion × Outlet
  | channel capacity (first :: rest) true => (some first, channel capacity rest true)
  | outlet => (none, outlet)

/-- The receiver of a channel goes away, with all that the channel holds. -/
def dropReceiver : Outlet → Outlet
  | channel capacity _ _ => channel capacity [] false
  | outlet => outlet

end Outlet

end Proactor.Simulation
