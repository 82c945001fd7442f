/-!
# Broadcast channels

Every subscriber receives what is sent after it subscribed, in order. The channel keeps a
bounded number of messages; a subscriber that fell further behind is told how many it
missed and goes on with the oldest message that is left. The places of the messages are
made together with the channel, so there is no channel of more places than memory can
address.
-/

namespace Playground.Preview

/-- A channel: everything that was sent, and how much of it is kept. -/
structure Channel (α : Type) where
  capacity : Nat
  sent : List α
  /-- Whether the sender is gone. -/
  closed : Bool

/-- A subscriber's place in a channel: the number of messages that it is past. -/
structure Receiver where
  next : Nat
  deriving DecidableEq, Repr

/-- What a subscriber receives. -/
inductive Received (α : Type) where
  /-- The subscriber missed some messages. -/
  | lagged (missed : Nat)
  | message (value : α)
  deriving DecidableEq, Repr

/-- Everything that a subscriber receives at once. -/
structure Delivery (α : Type) where
  items : List (Received α)
  /-- Whether nothing will follow. -/
  closed : Bool

/-- The least power of two that is not below `bound`, searched from `power` on. -/
def powerAbove (bound : Nat) : Nat → Nat → Nat
  | 0, power => power
  | fuel + 1, power => if bound ≤ power then power else powerAbove bound fuel (2 * power)

/-- A capacity that no channel has, because its places could not be addressed. -/
structure ExcessiveCapacity where
  capacity : Nat
  deriving DecidableEq, Repr

/-- The text that reports an excessive capacity. -/
def ExcessiveCapacity.message (_ : ExcessiveCapacity) : String := "capacity overflow"

/-- The largest number of messages that a channel can be asked to keep. A place takes more
than sixty-four bytes but less than twice that, and the places together have to fit in half
of a sixty-four bit address space. -/
def largestCapacity : Nat := Nat.pow 2 56

namespace Channel

variable {α : Type}

/-- A channel that keeps at least one message, and otherwise as many as asked for, rounded
up to a power of two. -/
def ofCapacity (capacity : Nat) : Except ExcessiveCapacity (Channel α) :=
  if capacity ≤ largestCapacity then .ok ⟨powerAbove capacity capacity 1, [], false⟩
  else .error ⟨capacity⟩

/-- Sends a message. -/
def send (channel : Channel α) (message : α) : Channel α :=
  { channel with sent := channel.sent ++ [message] }

/-- Closes the channel. -/
def close (channel : Channel α) : Channel α :=
  { channel with closed := true }

/-- A subscriber from now on. -/
def subscribe (channel : Channel α) : Receiver :=
  ⟨channel.sent.length⟩

/-- The number of messages that a subscriber has missed. -/
def missed (channel : Channel α) (receiver : Receiver) : Nat :=
  channel.sent.length - channel.capacity - receiver.next

/-- Everything that a subscriber has not received, and its place afterwards. -/
def drain (channel : Channel α) (receiver : Receiver) : Delivery α × Receiver :=
  let missed := channel.missed receiver
  let gap : List (Received α) := if missed = 0 then [] else [.lagged missed]
  (⟨gap ++ (channel.sent.drop (receiver.next + missed)).map .message, channel.closed⟩,
    channel.subscribe)

end Channel

end Playground.Preview
