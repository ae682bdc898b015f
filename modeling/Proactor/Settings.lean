/-!
# Settings

What a reactor does with a second submission on a busy descriptor, what it does
with a completion that its sink has no room for, how many events it takes from
one wait, and how it names its threads. Settings are changed one at a time, later
changes winning.
-/

namespace Proactor

/-- How a submission is treated when its descriptor has an outstanding operation already. -/
inductive OverlapPolicy where
  | overwrite
  | reject
  deriving DecidableEq, Repr

/-- What happens to a completion whose sink is full. -/
inductive DeliveryPolicy where
  | dropWhenFull
  | blockWhenFull
  deriving DecidableEq, Repr

/-- The settings of a reactor. -/
structure Settings where
  eventsCapacity : Nat := 64
  overlap : OverlapPolicy := .overwrite
  delivery : DeliveryPolicy := .dropWhenFull
  threadNamePrefix : String := "eventio"
  deriving DecidableEq

namespace Settings

/-- A change of one setting. -/
inductive Change where
  | eventsCapacity (capacity : Nat)
  | overlap (policy : OverlapPolicy)
  | delivery (policy : DeliveryPolicy)
  | threadNamePrefix (name : String)

/-- A batch holds at least one event. -/
def batchSize (capacity : Nat) : Nat :=
  max 1 capacity

/-- Make one change. A capacity of zero is raised to one. -/
def change (settings : Settings) : Change → Settings
  | .eventsCapacity capacity => { settings with eventsCapacity := batchSize capacity }
  | .overlap policy => { settings with overlap := policy }
  | .delivery policy => { settings with delivery := policy }
  | .threadNamePrefix name => { settings with threadNamePrefix := name }

/-- The default settings with a list of changes made in order. -/
def build (changes : List Change) : Settings :=
  changes.foldl change {}

end Settings

end Proactor
