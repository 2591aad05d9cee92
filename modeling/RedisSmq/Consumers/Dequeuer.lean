import RedisSmq.Admin.Managed

/-!
# Dequeuing under a rate limit

The rate limit of a queue is a property in Redis. A dequeuer reads it once, in `Init`, and
from then on goes by what it has read. Before each pop it runs `check-queue-rate-limit` with
the limit that it knows. The script counts down a key that expires by itself and that it
creates, with the limit of the caller, when it is missing. Between the check and the pop
anything can happen. A dequeuer that has read that there is no limit pops without a check.
-/

namespace RedisSmq

/-- `DequeueMessage`, after `Init`. -/
structure Dequeuer where
  consumer : ConsumerId
  group : Option GroupId
  rateLimit : Option RateLimitParams
  /-- The check has let the current call of `Dequeue` pass. The number tells under which of
  the counter keys that were created so far. -/
  cleared : Option Nat
  deriving DecidableEq

/-- A queue, the dequeuers that run on it, the number of counter keys that were created and
the number of messages that were popped. -/
structure Dequeuing where
  queue : Managed
  dequeuers : Multiset Dequeuer
  counters : Nat
  pops : Nat

/-- The action is part of `Dequeue`. -/
def ManagedAction.isDequeue : ManagedAction → Bool
  | .queue (.pop _ _) | .checkRateLimit _ => true
  | _ => false

inductive DequeueAction where
  /-- Anything but what dequeuers do. -/
  | manage (a : ManagedAction)
  | init (c : ConsumerId) (group : Option GroupId)
  /-- The reply of the script may be lost. -/
  | check (d : Dequeuer) (lost : Bool)
  | pop (d : Dequeuer)
  | stop (d : Dequeuer)

namespace Dequeuing

/-- The queue has just been created. -/
def created (cfg : Config) (type : QueueType) (deliveryModel : DeliveryModel)
    (groups : List GroupId) (now : Nanos) : Dequeuing where
  queue := Managed.created cfg type deliveryModel groups now
  dequeuers := 0
  counters := 0
  pops := 0

variable (s : Dequeuing)

/-- The dequeuers after one of them has gone on. -/
def proceed (d d' : Dequeuer) : Multiset Dequeuer := s.dequeuers.erase d + {d'}

def init (c : ConsumerId) (group : Option GroupId) : Option Dequeuing :=
  if s.queue.db.queue.isSome then
    some { s with dequeuers := ⟨c, group, s.queue.rateLimit, none⟩ ::ₘ s.dequeuers }
  else none

/-- The number of the counter key that a check works on. -/
def current : Nat := if s.queue.rateCounter.isNone then s.counters + 1 else s.counters

/-- `checkRateLimit` -/
def check (d : Dequeuer) (lost : Bool) : Option Dequeuing :=
  match d.rateLimit with
  | none => none
  | some limit =>
      if d ∈ s.dequeuers ∧ d.cleared = none then
        let (exceeded, queue) := s.queue.checkRateLimit limit
        some
          { s with
            queue := queue
            counters := s.current
            dequeuers := s.proceed d
              { d with cleared := if exceeded || lost then none else some s.current } }
      else none

/-- The queue after the dequeuer has popped a message, if there is one. -/
def popFor (d : Dequeuer) : Option Managed := s.queue.step (.queue (.pop d.consumer d.group))

/-- `pop`, which a dequeuer with a rate limit reaches only through a check. -/
def pop (d : Dequeuer) : Option Dequeuing :=
  if d ∈ s.dequeuers ∧ (d.rateLimit = none ∨ d.cleared.isSome = true) then
    let dequeuers := s.proceed d { d with cleared := none }
    match s.popFor d with
    | none => some { s with dequeuers := dequeuers }
    | some queue => some { s with queue := queue, dequeuers := dequeuers, pops := s.pops + 1 }
  else none

/-- The state after an action. -/
def step : DequeueAction → Option Dequeuing
  | .manage a =>
      if a.isDequeue then none else (s.queue.step a).map fun queue => { s with queue := queue }
  | .init c group => s.init c group
  | .check d lost => s.check d lost
  | .pop d => s.pop d
  | .stop d => some { s with dequeuers := s.dequeuers.erase d }

/-- The run leads from one state to the other. -/
def Runs (as : List DequeueAction) (s' : Dequeuing) : Prop := Run.exec step s as = some s'

end Dequeuing

end RedisSmq
