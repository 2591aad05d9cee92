import RedisSmq.Message.Codec

/-!
# Scheduling of messages

`nextScheduledTimestamp` decides when a message is due next and updates the
scheduling fields of its state as it does so. The producer calls it once, in
`dispatch`; the scheduled publisher calls it on the decoded message each time the
message falls due, and publishes a clone when the message goes back into the
schedule.

The cron library is a parameter: `nextTick expr now` is the next tick in
milliseconds, or `none` for an expression that does not parse or never ticks.
-/

namespace RedisSmq

/-- The cron library: the tick that follows an instant. -/
abbrev NextTick := Cron → Nanos → Option Millis

namespace Envelope

def clearEffectiveScheduledDelay (e : Envelope) : Envelope :=
  { e with state := { e.state with effectiveScheduledDelay := 0 } }

def incrScheduledRepeatCount (e : Envelope) : Envelope :=
  { e with state := { e.state with scheduledRepeatCount := e.state.scheduledRepeatCount + 1 } }

/-- `ResetScheduledRepeatCount` followed by `SetScheduledCronFired(true)`. -/
def cronFires (e : Envelope) : Envelope :=
  { e with state := { e.state with scheduledRepeatCount := 0, scheduledCronFired := true } }

/-- The repeat candidate of `NextScheduledTimestamp`; zero when there is none. -/
def repeatTimestamp (nowMs : Millis) (e : Envelope) : Millis :=
  let count := e.state.scheduledRepeatCount
  if count < e.message.scheduledRepeat then
    if e.message.scheduledCron.isNone || e.state.scheduledCronFired then
      match e.message.scheduledRepeatPeriod with
      | none => 0
      | some period =>
          if e.message.scheduledCron.isSome then nowMs + toMillis period
          else if 0 < count then nowMs + toMillis period
          else nowMs
    else 0
  else 0

/-- `NextScheduledTimestamp`: the next due time, zero for none, and the envelope
with the state it leaves behind. -/
def nextScheduledTimestamp (nextTick : NextTick) (now : Nanos) (e : Envelope) :
    Millis × Envelope :=
  if e.isSchedulable then
    let nowMs := toMillis now
    let delay := e.state.effectiveScheduledDelay
    if 0 < delay then
      (nowMs + delay, e.clearEffectiveScheduledDelay)
    else if e.message.scheduledCron.isNone && decide (e.message.scheduledRepeat = 0) then
      (0, e)
    else
      let cronTimestamp := (e.message.scheduledCron.bind fun c => nextTick c now).getD 0
      let repeatTimestamp := e.repeatTimestamp nowMs
      if 0 < cronTimestamp ∧ 0 < repeatTimestamp then
        if repeatTimestamp < cronTimestamp then (repeatTimestamp, e.incrScheduledRepeatCount)
        else (cronTimestamp, e.cronFires)
      else if 0 < cronTimestamp then (cronTimestamp, e.cronFires)
      else if 0 < repeatTimestamp then (repeatTimestamp, e.incrScheduledRepeatCount)
      else (0, e)
  else (0, e)

/-- The producer's `dispatch` up to the call of the publish script. -/
def dispatch (nextTick : NextTick) (now : Nanos) (e : Envelope) : Envelope :=
  let (due, e) := e.nextScheduledTimestamp nextTick now
  if 0 < due then
    { e with
      status := .scheduled
      state :=
        { e.state with
          scheduledAt := some due
          lastScheduledAt := some (toMillis now)
          scheduledTimes := e.state.scheduledTimes + 1 } }
  else
    { e with status := .pending, state := { e.state with publishedAt := some (toMillis now) } }

/-- `CloneMessage` followed by `ResetScheduledParams`, with the UUID of the clone.
The clone is a new message, created now. -/
def cloneUnscheduled (opts : ConsumeOptions) (now : Nanos) (uuid : MessageId) (source : Envelope) :
    Envelope :=
  let message : Producible :=
    { Producible.new opts now source.message.body with
      ttl := source.message.ttl
      retryThreshold := source.message.retryThreshold
      retryDelay := source.message.retryDelay
      consumeTimeout := source.message.consumeTimeout
      priority := source.message.priority
      scheduledCron := source.message.scheduledCron
      scheduledDelay := source.message.scheduledDelay
      scheduledRepeatPeriod := source.message.scheduledRepeatPeriod
      scheduledRepeat := source.message.scheduledRepeat }
  let clone := Envelope.new message uuid
  { clone with
    message := clone.message.resetScheduledParams
    consumerGroupId := source.consumerGroupId
    state :=
      { clone.state with
        requeuedMessageParentId := some source.id
        publishedAt := some (toMillis now) } }

section

variable {nextTick : NextTick} {now : Nanos} {e : Envelope}

/-- Deciding the next due time touches only the scheduling fields of the state. -/
theorem nextScheduledTimestamp_frame :
    (e.nextScheduledTimestamp nextTick now).2.message = e.message ∧
      (e.nextScheduledTimestamp nextTick now).2.consumerGroupId = e.consumerGroupId ∧
      (e.nextScheduledTimestamp nextTick now).2.id = e.id ∧
      (e.nextScheduledTimestamp nextTick now).2.state.attempts = e.state.attempts := by
  unfold nextScheduledTimestamp
  split
  · dsimp only
    split
    · exact ⟨rfl, rfl, rfl, rfl⟩
    split
    · exact ⟨rfl, rfl, rfl, rfl⟩
    split
    · split <;> exact ⟨rfl, rfl, rfl, rfl⟩
    split
    · exact ⟨rfl, rfl, rfl, rfl⟩
    split <;> exact ⟨rfl, rfl, rfl, rfl⟩
  · exact ⟨rfl, rfl, rfl, rfl⟩

/-- Dispatching changes neither the message nor whom it is for. -/
theorem dispatch_frame :
    (e.dispatch nextTick now).message = e.message ∧
      (e.dispatch nextTick now).consumerGroupId = e.consumerGroupId ∧
      (e.dispatch nextTick now).id = e.id ∧
      (e.dispatch nextTick now).state.attempts = e.state.attempts := by
  have hframe := @nextScheduledTimestamp_frame nextTick now e
  unfold dispatch
  dsimp only
  split <;> exact hframe

/-- A dispatched message is pending or scheduled. -/
theorem dispatch_status :
    (e.dispatch nextTick now).status = .pending ∨
      (e.dispatch nextTick now).status = .scheduled := by
  unfold dispatch
  dsimp only
  split
  · exact .inr rfl
  · exact .inl rfl

@[simp] theorem cloneUnscheduled_id (opts : ConsumeOptions) (uuid : MessageId) :
    (e.cloneUnscheduled opts now uuid).id = uuid := rfl

@[simp] theorem cloneUnscheduled_priority (opts : ConsumeOptions) (uuid : MessageId) :
    (e.cloneUnscheduled opts now uuid).message.priority = e.message.priority := rfl

end

end Envelope

end RedisSmq
