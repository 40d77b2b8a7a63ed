import Mathlib.Data.Int.Notation
import Mathlib.Tactic.Common

/-! The per-event context handed to handlers and middleware. -/
namespace Connectum.Events

/-- A raw event as an adapter delivers it. Dates are milliseconds since the epoch. -/
structure RawEvent where
  eventId : String
  eventType : String
  payload : List UInt8
  publishedAt : ℤ
  attempt : ℕ
  metadata : List (String × String)
  deriving DecidableEq, Repr

/-- The members of the `AbortSignal.any` composed for one event. -/
inductive AbortSource where
  | timeout (ms : ℕ)
  | drain
  | shutdown
  deriving DecidableEq, Repr

/-- The callback that a context invokes on its first `ack()` or `nack()`. -/
inductive Settlement where
  | onAck
  | onNack (requeue : Bool)
  deriving DecidableEq, Repr

structure EventContext where
  signal : List AbortSource
  eventId : String
  eventType : String
  publishedAt : ℤ
  attempt : ℕ
  metadata : List (String × String)
  settled : Bool
  deriving DecidableEq, Repr

def createEventContext (raw : RawEvent) (signal : List AbortSource) : EventContext where
  signal := signal
  eventId := raw.eventId
  eventType := raw.eventType
  publishedAt := raw.publishedAt
  attempt := raw.attempt
  metadata := raw.metadata
  settled := false

namespace EventContext

/-- `if (settled) return; settled = true; await callback()`. -/
def settle (ctx : EventContext) (callback : Settlement) : EventContext × List Settlement :=
  if ctx.settled then (ctx, []) else ({ ctx with settled := true }, [callback])

def ack (ctx : EventContext) : EventContext × List Settlement := ctx.settle .onAck

def nack (ctx : EventContext) (requeue : Option Bool) : EventContext × List Settlement :=
  ctx.settle (.onNack (requeue.getD true))

theorem settle_of_settled {ctx : EventContext} (h : ctx.settled = true)
    (callback : Settlement) : ctx.settle callback = (ctx, []) := by
  simp [settle, h]

theorem settle_of_open {ctx : EventContext} (h : ctx.settled = false)
    (callback : Settlement) :
    ctx.settle callback = ({ ctx with settled := true }, [callback]) := by
  simp [settle, h]

end EventContext
end Connectum.Events
