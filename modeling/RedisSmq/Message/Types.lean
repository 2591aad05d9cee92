import Mathlib.Data.Nat.Notation

/-!
# Messages

A message exists in three forms. The application fills in a `Producible`, whose
durations are nanoseconds. What is stored under the hash field `message` are its
`Params`, whose durations are milliseconds. The rest of the hash is the message
`State`. An `Envelope` pairs a producible message with its state, its status and
its consumer group, and is what the workers pass around.

The destination queue is not part of the model: every definition below concerns
the messages of one queue.
-/

namespace RedisSmq

/-- Message identifiers. The code draws them as fresh UUIDs. -/
abbrev MessageId := Nat

abbrev ConsumerId := Nat

abbrev GroupId := Nat

abbrev LockId := Nat

/-- The payload, which no modelled function inspects. -/
abbrev Body := Nat

/-- A cron expression, which only the cron library inspects. -/
abbrev Cron := Nat

/-- Instants and durations of the Go code, in nanoseconds. -/
abbrev Nanos := Nat

/-- Instants and durations as they are stored, in milliseconds. -/
abbrev Millis := Nat

def nanosPerMilli : Nat := 1000000

/-- `UnixMilli` and `Milliseconds`: both truncate. -/
def toMillis (t : Nanos) : Millis := t / nanosPerMilli

def ofMillis (t : Millis) : Nanos := t * nanosPerMilli

inductive Status where
  | new
  | pending
  | processing
  | scheduled
  | acknowledged
  | unackRequeuing
  | unackDelaying
  | deadLettered
  deriving DecidableEq, Repr

/-- Only acknowledged and dead-lettered messages can be requeued. -/
def Status.isRequeuable : Status → Bool
  | .acknowledged | .deadLettered => true
  | _ => false

/-- `ConsumeOptions`, in milliseconds: what a new message starts from. -/
structure ConsumeOptions where
  ttl : Millis
  retryThreshold : Nat
  retryDelay : Millis
  consumeTimeout : Millis
  deriving DecidableEq, Repr

def defaultConsumeOptions : ConsumeOptions where
  ttl := 0
  retryThreshold := 3
  retryDelay := 60000
  consumeTimeout := 0

/-- `ProducibleMessage`. The setters clamp negative values to zero. -/
structure Producible where
  createdAt : Nanos
  ttl : Nanos
  retryThreshold : Nat
  retryDelay : Nanos
  consumeTimeout : Nanos
  body : Body
  priority : Option Nat
  scheduledCron : Option Cron
  scheduledDelay : Option Nanos
  scheduledRepeatPeriod : Option Nanos
  scheduledRepeat : Nat
  deriving DecidableEq, Repr

def Producible.new (opts : ConsumeOptions) (now : Nanos) (body : Body) : Producible where
  createdAt := now
  ttl := ofMillis opts.ttl
  retryThreshold := opts.retryThreshold
  retryDelay := ofMillis opts.retryDelay
  consumeTimeout := ofMillis opts.consumeTimeout
  body := body
  priority := none
  scheduledCron := none
  scheduledDelay := none
  scheduledRepeatPeriod := none
  scheduledRepeat := 0

def Producible.resetScheduledParams (m : Producible) : Producible :=
  { m with
    scheduledCron := none
    scheduledDelay := none
    scheduledRepeatPeriod := none
    scheduledRepeat := 0 }

/-- `Params`: the JSON document stored in the hash field `message`. -/
structure Params where
  createdAt : Millis
  ttl : Millis
  retryThreshold : Nat
  retryDelay : Millis
  consumeTimeout : Millis
  body : Body
  priority : Option Nat
  scheduledCron : Option Cron
  scheduledDelay : Option Millis
  scheduledRepeatPeriod : Option Millis
  scheduledRepeat : Nat
  consumerGroupId : Option GroupId
  deriving DecidableEq, Repr

/-- A cron expression or a repeat count makes the message periodic. -/
def Params.isPeriodic (p : Params) : Bool :=
  p.scheduledCron.isSome || decide (0 < p.scheduledRepeat)

def Producible.toParams (m : Producible) (group : Option GroupId) : Params where
  createdAt := toMillis m.createdAt
  ttl := toMillis m.ttl
  retryThreshold := m.retryThreshold
  retryDelay := toMillis m.retryDelay
  consumeTimeout := toMillis m.consumeTimeout
  body := m.body
  priority := m.priority
  scheduledCron := m.scheduledCron
  scheduledDelay := m.scheduledDelay.map toMillis
  scheduledRepeatPeriod := m.scheduledRepeatPeriod.map toMillis
  scheduledRepeat := m.scheduledRepeat
  consumerGroupId := group

/-- `State`: the lifecycle of a message. Timestamps are kept as the milliseconds
that the accessors return. -/
structure State where
  id : MessageId
  scheduledAt : Option Millis
  publishedAt : Option Millis
  requeuedAt : Option Millis
  processingStartedAt : Option Millis
  acknowledgedAt : Option Millis
  unacknowledgedAt : Option Millis
  deadLetteredAt : Option Millis
  lastRequeuedAt : Option Millis
  lastUnacknowledgedAt : Option Millis
  lastScheduledAt : Option Millis
  lastRetriedAttemptAt : Option Millis
  lastProcessedAt : Option Millis
  scheduledCronFired : Bool
  attempts : Nat
  scheduledRepeatCount : Nat
  requeueCount : Nat
  expired : Bool
  effectiveScheduledDelay : Millis
  scheduledTimes : Nat
  scheduledMessageParentId : Option MessageId
  requeuedMessageParentId : Option MessageId
  deriving DecidableEq, Repr

/-- `NewMessageState`, with the UUID it draws. -/
def State.new (id : MessageId) : State where
  id := id
  scheduledAt := none
  publishedAt := none
  requeuedAt := none
  processingStartedAt := none
  acknowledgedAt := none
  unacknowledgedAt := none
  deadLetteredAt := none
  lastRequeuedAt := none
  lastUnacknowledgedAt := none
  lastScheduledAt := none
  lastRetriedAttemptAt := none
  lastProcessedAt := none
  scheduledCronFired := false
  attempts := 0
  scheduledRepeatCount := 0
  requeueCount := 0
  expired := false
  effectiveScheduledDelay := 0
  scheduledTimes := 0
  scheduledMessageParentId := none
  requeuedMessageParentId := none

structure Envelope where
  message : Producible
  state : State
  status : Status
  consumerGroupId : Option GroupId
  deriving DecidableEq, Repr

namespace Envelope

/-- `NewEnvelope`, with the UUID drawn for the message state. -/
def new (message : Producible) (id : MessageId) : Envelope where
  message := message
  state :=
    { State.new id with
      effectiveScheduledDelay := (message.scheduledDelay.map toMillis).getD 0 }
  status := .new
  consumerGroupId := none

def id (e : Envelope) : MessageId := e.state.id

def toParams (e : Envelope) : Params := e.message.toParams e.consumerGroupId

/-- `Envelope.IsExpired` at the instant `now`. -/
def isExpired (now : Nanos) (e : Envelope) : Bool :=
  decide (0 < e.message.ttl) && decide (e.message.createdAt + e.message.ttl ≤ now)

def hasRetryThresholdExceeded (e : Envelope) : Bool :=
  decide (e.message.retryThreshold ≤ e.state.attempts)

def hasNextDelay (e : Envelope) : Bool := decide (0 < e.state.effectiveScheduledDelay)

def isPeriodic (e : Envelope) : Bool :=
  e.message.scheduledCron.isSome || decide (0 < e.message.scheduledRepeat)

def isSchedulable (e : Envelope) : Bool := e.hasNextDelay || e.isPeriodic

end Envelope

/-! ## Messages for examples -/

/-- The copy of an unscheduled message that is loaded while its time stamps are zero. -/
def Envelope.early (m : Producible) (id : MessageId) (status : Status)
    (attempts : Nat) : Envelope :=
  { Envelope.new m id with status := status, state := { State.new id with attempts := attempts } }

/-- A message with the default options that is retried without delay. -/
def promptMessage : Producible :=
  { Producible.new defaultConsumeOptions 0 0 with retryDelay := 0 }

end RedisSmq
