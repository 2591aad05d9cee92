import RedisSmq.Message.Codec

/-!
# What an unacknowledgement does with a message

`resolveUnackAction` looks at the cause and at the copy of the message it is
given, never at the stored hash: an expired, periodic or exhausted message is
dead-lettered, any other one is retried, after its retry delay if it has one.
-/

namespace RedisSmq

/-- `consumer.UnacknowledgeCause`. -/
inductive UnackCause where
  | timeout
  | consumeError
  | unacknowledged
  | offlineConsumer
  | shuttingDown
  | ttlExpired
  | queueStopped
  | queueInvalidState
  | queueLocked
  | messageNotFound
  | queueStateChanged
  | queueNotFound
  | unexpectedError
  | invalidHandlerSignature
  deriving DecidableEq, Repr

inductive DeadLetterCause where
  | ttlExpired
  | retryThresholdExceeded
  | periodicMessage
  deriving DecidableEq, Repr

/-- `UnacknowledgeAction`; a dead letter carries its cause. -/
inductive UnackAction where
  | deadLetter (cause : DeadLetterCause)
  | requeue
  | delay
  deriving DecidableEq, Repr

/-- An action other than a dead letter puts the message on the requeued list. -/
def UnackAction.retries : UnackAction → Bool
  | .deadLetter _ => false
  | .requeue | .delay => true

/-- `resolveUnackAction` at the instant `now`. -/
def resolveUnackAction (now : Nanos) (e : Envelope) (cause : UnackCause) : UnackAction :=
  if decide (cause = .ttlExpired) || e.isExpired now then .deadLetter .ttlExpired
  else if e.isPeriodic then .deadLetter .periodicMessage
  else if e.hasRetryThresholdExceeded then .deadLetter .retryThresholdExceeded
  else if 0 < e.message.retryDelay then .delay
  else .requeue

/-- A retried message has attempts left, is not expired and not periodic. -/
theorem retries_resolveUnackAction {now : Nanos} {e : Envelope} {cause : UnackCause} :
    (resolveUnackAction now e cause).retries = true ↔
      cause ≠ .ttlExpired ∧ e.isExpired now = false ∧ e.isPeriodic = false ∧
        e.state.attempts < e.message.retryThreshold := by
  unfold resolveUnackAction
  by_cases hcause : cause = .ttlExpired
  · simp [hcause, UnackAction.retries]
  by_cases hexp : e.isExpired now = true
  · simp [hexp, UnackAction.retries]
  by_cases hper : e.isPeriodic = true
  · simp [hcause, hexp, hper, UnackAction.retries]
  by_cases hthr : e.hasRetryThresholdExceeded = true
  · have : e.message.retryThreshold ≤ e.state.attempts := of_decide_eq_true hthr
    simp [hcause, hexp, hper, hthr, UnackAction.retries, this]
  have : e.state.attempts < e.message.retryThreshold :=
    Nat.lt_of_not_le fun h => hthr (decide_eq_true h)
  by_cases hdelay : 0 < e.message.retryDelay <;>
    simp [hcause, hexp, hper, hthr, hdelay, UnackAction.retries, this]

/-- One record of a message's unacknowledgement history. -/
structure HistoryRecord where
  messageId : MessageId
  cause : UnackCause
  action : UnackAction
  attempts : Nat
  timestamp : Millis
  deriving DecidableEq, Repr

end RedisSmq
