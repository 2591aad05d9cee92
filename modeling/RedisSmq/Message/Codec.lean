import RedisSmq.Message.Types

/-!
# The stored form of a message

A message is stored as a Redis hash. Scripts write single fields of it and may
write to a hash that does not exist, so every field is optional here. For most
fields the readers treat an absent field and the empty string alike, and both are
`none`. The checkout script tells them apart for `processingStartedAt`, which is
therefore a `Cell`.

Decoding rebuilds the producible message from `message.New()`. The creation time
of the rebuilt message is the instant of decoding, because `rebuildMessage` never
restores `createdAt`, and a stored scheduling delay is written back into the
state on every decode.
-/

namespace RedisSmq

/-- A hash field whose reader tells an absent field from the empty string. -/
inductive Cell (α : Type) where
  | absent
  | empty
  | value (a : α)
  deriving DecidableEq, Repr

namespace Cell

/-- `OrEmptyInt64`: how an optional number is written. -/
def ofOption {α : Type} : Option α → Cell α
  | none => .empty
  | some a => .value a

def toOption {α : Type} : Cell α → Option α
  | .value a => some a
  | _ => none

@[simp] theorem toOption_ofOption {α : Type} (o : Option α) : (ofOption o).toOption = o := by
  cases o <;> rfl

end Cell

/-- The Redis hash of a message. -/
structure MessageHash where
  id : Option MessageId := none
  status : Option Status := none
  message : Option Params := none
  scheduledAt : Option Millis := none
  publishedAt : Option Millis := none
  processingStartedAt : Cell Millis := .absent
  deadLetteredAt : Option Millis := none
  acknowledgedAt : Option Millis := none
  unacknowledgedAt : Option Millis := none
  lastUnacknowledgedAt : Option Millis := none
  lastScheduledAt : Option Millis := none
  lastProcessedAt : Option Millis := none
  requeuedAt : Option Millis := none
  requeueCount : Option Nat := none
  lastRequeuedAt : Option Millis := none
  lastRetriedAttemptAt : Option Millis := none
  scheduledCronFired : Option Bool := none
  attempts : Option Nat := none
  scheduledRepeatCount : Option Nat := none
  expired : Option Bool := none
  effectiveScheduledDelay : Option Millis := none
  scheduledTimes : Option Nat := none
  scheduledMessageParentId : Option MessageId := none
  requeuedMessageParentId : Option MessageId := none
  unacknowledgedCount : Option Nat := none
  deriving DecidableEq, Repr

namespace Codec

/-- `parseOptionalTS`: only positive timestamps are taken over. -/
def parseOptionalTS (ts : Option Millis) : Option Millis :=
  ts.filter fun t => decide (0 < t)

/-- `DecodeState`. The identifier drawn by `NewMessageState` stays when the hash
has none. -/
def decodeState (uuid : MessageId) (h : MessageHash) : State where
  id := h.id.getD uuid
  scheduledAt := parseOptionalTS h.scheduledAt
  publishedAt := parseOptionalTS h.publishedAt
  requeuedAt := parseOptionalTS h.requeuedAt
  processingStartedAt := parseOptionalTS h.processingStartedAt.toOption
  acknowledgedAt := parseOptionalTS h.acknowledgedAt
  unacknowledgedAt := parseOptionalTS h.unacknowledgedAt
  deadLetteredAt := parseOptionalTS h.deadLetteredAt
  lastRequeuedAt := parseOptionalTS h.lastRequeuedAt
  lastUnacknowledgedAt := parseOptionalTS h.lastUnacknowledgedAt
  lastScheduledAt := parseOptionalTS h.lastScheduledAt
  lastRetriedAttemptAt := parseOptionalTS h.lastRetriedAttemptAt
  lastProcessedAt := parseOptionalTS h.lastProcessedAt
  scheduledCronFired := h.scheduledCronFired.getD false
  attempts := h.attempts.getD 0
  scheduledRepeatCount := h.scheduledRepeatCount.getD 0
  requeueCount := h.requeueCount.getD 0
  expired := h.expired.getD false
  effectiveScheduledDelay := h.effectiveScheduledDelay.getD 0
  scheduledTimes := h.scheduledTimes.getD 0
  scheduledMessageParentId := h.scheduledMessageParentId
  requeuedMessageParentId := h.requeuedMessageParentId

/-- `rebuildMessage` at the instant `now`: a fresh message takes over the stored
parameters, all but the creation time. -/
def rebuildMessage (opts : ConsumeOptions) (now : Nanos) (p : Params) : Producible :=
  { Producible.new opts now p.body with
    priority := p.priority
    ttl := if 0 < p.ttl then ofMillis p.ttl else ofMillis opts.ttl
    retryThreshold := p.retryThreshold
    retryDelay := ofMillis p.retryDelay
    consumeTimeout := ofMillis p.consumeTimeout
    scheduledCron := p.scheduledCron
    scheduledDelay := p.scheduledDelay.map ofMillis
    scheduledRepeatPeriod := p.scheduledRepeatPeriod.map ofMillis
    scheduledRepeat := p.scheduledRepeat }

/-- `DecodeEnvelope`: fails when the field `message` is missing. That field is
only ever written together with all fields of the state, so the other error, an
empty state, does not occur with it. -/
def decodeEnvelope (opts : ConsumeOptions) (uuid : MessageId) (now : Nanos) (h : MessageHash) :
    Option Envelope :=
  h.message.map fun p =>
    let state := decodeState uuid h
    { message := rebuildMessage opts now p
      state :=
        { state with
          effectiveScheduledDelay := p.scheduledDelay.getD state.effectiveScheduledDelay }
      status := h.status.getD .new
      consumerGroupId := p.consumerGroupId }

/-- The fields that `publish_message` writes for an envelope. -/
def publishedHash (e : Envelope) : MessageHash where
  id := some e.state.id
  status := some e.status
  message := some e.toParams
  scheduledAt := e.state.scheduledAt
  publishedAt := e.state.publishedAt
  processingStartedAt := .ofOption e.state.processingStartedAt
  deadLetteredAt := e.state.deadLetteredAt
  acknowledgedAt := e.state.acknowledgedAt
  unacknowledgedAt := e.state.unacknowledgedAt
  lastUnacknowledgedAt := e.state.lastUnacknowledgedAt
  lastScheduledAt := e.state.lastScheduledAt
  lastProcessedAt := e.state.lastProcessedAt
  requeuedAt := e.state.requeuedAt
  requeueCount := some e.state.requeueCount
  lastRequeuedAt := e.state.lastRequeuedAt
  lastRetriedAttemptAt := e.state.lastRetriedAttemptAt
  scheduledCronFired := some e.state.scheduledCronFired
  attempts := some e.state.attempts
  scheduledRepeatCount := some e.state.scheduledRepeatCount
  expired := some e.state.expired
  effectiveScheduledDelay := some e.state.effectiveScheduledDelay
  scheduledTimes := some e.state.scheduledTimes
  scheduledMessageParentId := e.state.scheduledMessageParentId
  requeuedMessageParentId := e.state.requeuedMessageParentId

variable {opts : ConsumeOptions} {uuid : MessageId} {now : Nanos} {h : MessageHash} {e : Envelope}

theorem decodeEnvelope_isSome : (decodeEnvelope opts uuid now h).isSome = h.message.isSome := by
  simp [decodeEnvelope]

theorem decodeEnvelope_id (hd : decodeEnvelope opts uuid now h = some e) :
    e.id = h.id.getD uuid := by
  obtain ⟨p, hp, rfl⟩ := Option.map_eq_some_iff.1 hd
  rfl

theorem toMillis_ofMillis (t : Millis) : toMillis (ofMillis t) = t :=
  Nat.mul_div_cancel t (by decide)

/-- The parameters survive storing and decoding, all but the creation time and,
when none was set, the time to live. -/
theorem decodeEnvelope_message (hd : decodeEnvelope opts uuid now h = some e) :
    ∃ p, h.message = some p ∧ e.message = rebuildMessage opts now p ∧
      e.consumerGroupId = p.consumerGroupId := by
  obtain ⟨p, hp, rfl⟩ := Option.map_eq_some_iff.1 hd
  exact ⟨p, hp, rfl, rfl⟩

end Codec

end RedisSmq
