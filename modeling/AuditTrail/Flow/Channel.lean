import AuditTrail.Machine

/-!
# Channels

A channel holds a bounded number of items. A sender first joins the queue of the channel; it may put its item in as soon as it
is among the foremost of that queue for whom there is room. Senders are so served in the order they came. Without a receiver
nothing can be sent any more.
-/

namespace AuditTrail

/-- Who waits at a channel. -/
inductive Sender where
  /-- The reader of a partition, by its index among its like. -/
  | reader (i : Nat)
  | correlator
  | sweeper
  /-- Somebody outside the pipeline. -/
  | caller
  deriving DecidableEq, Repr

/-- A bounded channel. -/
structure Channel (α : Type) where
  capacity : Nat
  items : List α := []
  /-- The senders that wait, the first in front. -/
  waiting : List Sender := []
  /-- Whether there is a receiver. -/
  received : Bool := true
  deriving DecidableEq, Repr

namespace Channel

/-- Whether a channel with so much room can be made. The attempt panics otherwise. -/
def isPossible (n : Nat) : Bool := max n 1 ≤ Machine.greatestCapacity

/-- An empty channel with room for at least one item. -/
def ofCapacity (n : Nat) : Channel α := { capacity := max n 1 }

/-- How many more items there is room for. -/
def room (c : Channel α) : Nat := c.capacity - c.items.length

/-- Whether a sender may put an item in. -/
def admits (c : Channel α) (s : Sender) : Bool := (c.waiting.take c.room).contains s

/-- The channel with a sender at the end of its queue. -/
def join (c : Channel α) (s : Sender) : Channel α := { c with waiting := c.waiting ++ [s] }

/-- The channel without a sender in its queue. -/
def leave (c : Channel α) (s : Sender) : Channel α := { c with waiting := c.waiting.erase s }

/-- The channel with an item put in by a sender. -/
def push (c : Channel α) (s : Sender) (a : α) : Channel α := { c.leave s with items := c.items ++ [a] }

/-- The foremost item and the channel without it. -/
def take? (c : Channel α) : Option (α × Channel α) :=
  match c.items with
  | [] => none
  | a :: rest => some (a, { c with items := rest })

/-- The channel after its receiver has gone, with all that was in it. -/
def close (c : Channel α) : Channel α := { c with received := false, items := [] }

/-- What comes of an attempt to send. -/
inductive Attempt (α : Type) where
  /-- There is no receiver. -/
  | closed
  /-- The sender has joined the queue. -/
  | joined (c : Channel α)
  /-- The item is in the channel. -/
  | sent (c : Channel α)
  /-- The sender has to wait. -/
  | blocked
  deriving DecidableEq, Repr

/-- One attempt of a sender to send an item. -/
def attempt (c : Channel α) (s : Sender) (a : α) : Attempt α :=
  if !c.received then .closed
  else if !c.waiting.contains s then .joined (c.join s)
  else if c.admits s then .sent (c.push s a)
  else .blocked

end Channel

end AuditTrail
