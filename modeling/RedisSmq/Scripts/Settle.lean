import RedisSmq.Scripts.Basic

/-!
# Delivery and settlement

A consumer takes a message in two steps: a pop moves its identifier from the
pending container to the consumer's processing list, and `checkout-message` then
marks it as being processed. `acknowledge-message` and `unacknowledge-message`
settle messages in batches. Both take the identifier out of the processing list
and act only if it was there; neither looks at the status of the message, and
`checkout-message` looks only at the status and never at the processing list.
-/

namespace RedisSmq

/-- `RPOPLPUSH` for lists and `zpoplpush` for priority queues. -/
def pop (type : QueueType) (group : Option GroupId) (c : ConsumerId) (db : Keyspace) :
    Option MessageId × Keyspace :=
  match type with
  | .fifo | .lifo =>
      match (db.lists (.pending group)).getLast? with
      | none => (none, db)
      | some id =>
          (some id,
            (db.setList (.pending group) (db.lists (.pending group)).dropLast).lpush
              (.processing c) id)
  | .priority =>
      match (db.zsets (.priority group)).first? with
      | none => (none, db)
      | some id => (some id, (db.zrem (.priority group) id).lpush (.processing c) id)

inductive CheckoutReply where
  | refused (r : Refusal)
  | notFound
  | notPending
  | checkedOut (h : MessageHash)
  deriving DecidableEq, Repr

/-- What `checkout-message` writes. The start of processing is kept from the
first delivery: it is written only over an empty string. -/
def checkoutWrite (now : Millis) (h : MessageHash) : MessageHash :=
  { h with
    status := some .processing
    processingStartedAt :=
      if h.processingStartedAt = .empty then .value now else h.processingStartedAt
    lastProcessedAt := some now
    attempts := some (h.attempts.getD 0 + 1) }

def checkoutMessage (now : Millis) (id : MessageId) (db : Keyspace) : CheckoutReply × Keyspace :=
  match stateRefusal db.operationalState with
  | some r => (.refused r, db)
  | none =>
      match db.hgetall id with
      | none => (.notFound, db)
      | some h =>
          match h.status with
          | none => (.notFound, db)
          | some .pending =>
              (.checkedOut (checkoutWrite now h),
                ((db.hset id (checkoutWrite now)).hincrby .processing 1).hincrby .pending (-1))
          | some _ => (.notPending, db)

/-- What `acknowledge-message` writes. -/
def acknowledgeWrite (now : Millis) (h : MessageHash) : MessageHash :=
  { h with status := some .acknowledged, acknowledgedAt := some now }

/-- The loop of `acknowledge-message`: which identifiers were in the list. -/
def acknowledgeLoop (c : ConsumerId) (now : Millis) :
    List MessageId → Keyspace → List (MessageId × Bool) × Keyspace
  | [], db => ([], db)
  | id :: ids, db =>
      if id ∈ db.lists (.processing c) then
        let (results, db) := acknowledgeLoop c now ids
          ((db.lrem (.processing c) id).hset id (acknowledgeWrite now))
        ((id, true) :: results, db)
      else
        let (results, db) := acknowledgeLoop c now ids db
        ((id, false) :: results, db)

/-- The identifiers that the loop of `acknowledge-message` found in the list. -/
def ackedIds (results : List (MessageId × Bool)) : List MessageId :=
  (results.filter Prod.snd).map Prod.fst

/-- `RPUSH` of a batch of identifiers, then `LTRIM` if the size is bounded. -/
def Keyspace.keepAudit (db : Keyspace) (k : ListKey) (audit : AuditQueue)
    (ids : List MessageId) : Keyspace :=
  let db := db.setList k (db.lists k ++ ids)
  if audit.queueSize = 0 then db else db.ltrimLast k audit.queueSize

/-- `acknowledge-message`. The counters are updated once for the whole batch, and
the audit list last: a batch that Lua cannot unpack aborts the script there. -/
def acknowledgeMessage (cfg : Config) (c : ConsumerId) (now : Millis) (ids : List MessageId)
    (db : Keyspace) : Outcome (Except Refusal (List (MessageId × Bool))) :=
  if db.queue.isNone then .done db (.error .queueNotFound)
  else
    match stateRefusal db.operationalState with
    | some r => .done db (.error r)
    | none =>
        let (results, db) := acknowledgeLoop c now ids db
        let acked := ackedIds results
        if acked = [] then .done db (.ok results)
        else
          let db := (db.hincrby .acknowledged acked.length).hincrby .processing (-acked.length)
          if cfg.acknowledged.enabled then
            if cfg.unpackLimit < acked.length then .abort db .tooManyResults
            else .done (db.keepAudit .acknowledged cfg.acknowledged acked) (.ok results)
          else .done db (.ok results)

/-- The arguments of `unacknowledge-message` for one message. -/
structure UnackArg where
  id : MessageId
  retries : Bool
  deadLetteredAt : Option Millis
  expired : Bool
  unacknowledgedAt : Millis
  history : Option HistoryRecord

/-- One message of `buildBatchLuaArgs`. -/
def UnackArg.ofEnvelope (cfg : Config) (now : Nanos) (e : Envelope) (cause : UnackCause) :
    UnackArg :=
  let action := resolveUnackAction now e cause
  { id := e.id
    retries := action.retries
    deadLetteredAt := if action.retries then none else some (toMillis now)
    expired := e.isExpired now || decide (cause = .ttlExpired)
    unacknowledgedAt := toMillis now
    history :=
      if cfg.historyEnabled then
        some
          { messageId := e.id
            cause := cause
            action := action
            attempts := e.state.attempts
            timestamp := toMillis now }
      else none }

/-- What `unacknowledge-message` writes. -/
def UnackArg.write (a : UnackArg) (h : MessageHash) : MessageHash :=
  { h with
    status := some (if a.retries then .unackRequeuing else .deadLettered)
    unacknowledgedAt := some a.unacknowledgedAt
    lastUnacknowledgedAt := some a.unacknowledgedAt
    deadLetteredAt := a.deadLetteredAt
    expired := some a.expired
    unacknowledgedCount :=
      if a.history.isSome then some (h.unacknowledgedCount.getD 0 + 1)
      else h.unacknowledgedCount }

/-- The list that `unacknowledge-message` puts the identifier on: the requeued list,
or the dead-letter list if that is audited. -/
def Keyspace.pushUnacked (cfg : Config) (a : UnackArg) (db : Keyspace) : Keyspace :=
  if a.retries then db.rpush .requeued a.id
  else if cfg.deadLettered.enabled then db.keepAudit .deadLetter cfg.deadLettered [a.id]
  else db

def Keyspace.recordUnack (cfg : Config) (a : UnackArg) (db : Keyspace) : Keyspace :=
  match a.history with
  | none => db
  | some r => db.pushHistory a.id (if cfg.historyEnabled then cfg.historySize else 0) r

/-- The body of the loop of `unacknowledge-message` for an identifier that was in
the processing list. -/
def unacknowledgeOne (cfg : Config) (c : ConsumerId) (a : UnackArg) (db : Keyspace) : Keyspace :=
  (((db.lrem (.processing c) a.id).pushUnacked cfg a).recordUnack cfg a).hset a.id a.write

/-- The loop of `unacknowledge-message`: the numbers of requeued and of
dead-lettered messages. -/
def unacknowledgeLoop (cfg : Config) (c : ConsumerId) :
    List UnackArg → Nat → Nat → Keyspace → (Nat × Nat) × Keyspace
  | [], requeued, dead, db => ((requeued, dead), db)
  | a :: args, requeued, dead, db =>
      if a.id ∈ db.lists (.processing c) then
        if a.retries then
          unacknowledgeLoop cfg c args (requeued + 1) dead (unacknowledgeOne cfg c a db)
        else
          unacknowledgeLoop cfg c args requeued (dead + 1) (unacknowledgeOne cfg c a db)
      else unacknowledgeLoop cfg c args requeued dead db

/-- `unacknowledge-message`: replies with the number of messages it settled. -/
def unacknowledgeMessage (cfg : Config) (c : ConsumerId) (args : List UnackArg) (db : Keyspace) :
    Except Refusal Nat × Keyspace :=
  if db.queue.isNone then (.error .queueNotFound, db)
  else
    match stateRefusal db.operationalState with
    | some r => (.error r, db)
    | none =>
        let ((requeued, dead), db) := unacknowledgeLoop cfg c args 0 0 db
        (.ok (requeued + dead),
          ((db.hincrbyPos .processing (-1) (requeued + dead)).hincrbyPos .deadLettered 1
            dead).hincrbyPos .requeued 1 requeued)

end RedisSmq
