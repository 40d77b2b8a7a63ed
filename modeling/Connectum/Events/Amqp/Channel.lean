import Connectum.Events.Drain

/-! The consumer channel of an AMQP subscription, and how `unsubscribe()` takes it down. -/
namespace Connectum.Events.Amqp

/-- The command that `unsubscribe()` awaits, if it has been called. -/
inductive ChannelPhase where
  | consuming
  | cancelling
  | deletingQueue
  | closing
  | closed
  deriving DecidableEq, Repr

structure SubscriptionRecord where
  isAutoGroup : Bool
  phase : ChannelPhase
  deriving DecidableEq, Repr

/-- The ends of `ch.cancel`, `ch.deleteQueue` and `ch.close`, whose errors are swallowed. -/
inductive ChannelReply where
  | cancelled
  | queueDeleted
  | closed
  deriving DecidableEq, Repr

namespace SubscriptionRecord

def started (isAutoGroup : Bool) : SubscriptionRecord := ⟨isAutoGroup, .consuming⟩

/-- The broker dispatches messages until it has cancelled the consumer. -/
def accept (r : SubscriptionRecord) : Option SubscriptionRecord :=
  if r.phase = .consuming ∨ r.phase = .cancelling then some r else none

def internal (r : SubscriptionRecord) : ChannelReply → Option SubscriptionRecord
  | .cancelled =>
    if r.phase = .cancelling then
      some { r with phase := if r.isAutoGroup then .deletingQueue else .closing }
    else none
  | .queueDeleted => if r.phase = .deletingQueue then some { r with phase := .closing } else none
  | .closed => if r.phase = .closing then some { r with phase := .closed } else none

/-- The synchronous part of `unsubscribe()`: `ch.cancel` is sent. -/
def unsubscribe (r : SubscriptionRecord) : SubscriptionRecord := { r with phase := .cancelling }

/-- A channel refuses acknowledgements from the call of `ch.close()` on. -/
def isOpen (r : SubscriptionRecord) : Bool :=
  match r.phase with
  | .consuming | .cancelling | .deletingQueue => true
  | .closing | .closed => false

end SubscriptionRecord

def transport : Transport SubscriptionRecord ChannelReply where
  accept := fun r _ _ => r.accept
  internal := fun _ => SubscriptionRecord.internal
  unsubscribe := SubscriptionRecord.unsubscribe
  unsubscribed := fun r => decide (r.phase = .closed)
  isOpen := SubscriptionRecord.isOpen

end Connectum.Events.Amqp
