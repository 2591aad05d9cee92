import RedisSmq.Data.Run
import RedisSmq.System.State

/-!
# The steps of the system

Every action is one atomic step: a script, a Redis command or a piece of Go code that
no other process can observe. `step` gives the state after an action, or nothing if the
action is not possible. A script takes its time and the copies it works on from the
moment its arguments were built, so actions that run scripts on prepared arguments carry
the instant `t` of the preparation, which must not lie in the future.

A consumer may have any number of `Dequeue` and handler calls going on, and a batch may
consist of any of its buffered settlements. Both are more than a consumer does.
-/

namespace RedisSmq

inductive Action where
  /-- `Produce` for one destination group. -/
  | produce (m : Producible) (group : Option GroupId)
  | pop (c : ConsumerId) (group : Option GroupId)
  | checkout (c : ConsumerId) (id : MessageId) (group : Option GroupId)
  /-- The context of `Dequeue` is cancelled, so that its checkout, or the
  unacknowledgement that follows a refused one, does not reach Redis. -/
  | cancel (c : ConsumerId) (task : Task)
  | consume (c : ConsumerId) (e : Envelope) (k : Nat)
  /-- The handler returns before the timer fires. -/
  | finish (c : ConsumerId) (e : Envelope) (k : Nat) (started : Nanos) (ok : Bool)
  /-- The timer fires while the handler runs. -/
  | timeout (c : ConsumerId) (e : Envelope) (k : Nat) (started : Nanos)
  /-- The handler returns after the timer fired. -/
  | finishTimedOut (c : ConsumerId) (e : Envelope) (k : Nat) (started : Nanos)
  /-- The timer fires after `Consume` has found the flag unset. -/
  | lateTimeout (c : ConsumerId) (e : Envelope) (k : Nat) (started : Nanos)
  /-- `Consume` returns, which stops the timer. -/
  | returned (c : ConsumerId) (e : Envelope) (k : Nat) (started : Nanos)
  | acknowledge (c : ConsumerId) (batch : List (MessageId × Nat)) (t : Nanos)
  /-- `unacknowledgeFailed` loads a message whose acknowledgement was rejected. -/
  | reload (c : ConsumerId) (id : MessageId) (k : Nat) (cause : UnackCause)
  | unacknowledge (c : ConsumerId) (batch : List (Envelope × Option Nat × UnackCause)) (t : Nanos)
  | crash (c : ConsumerId)
  | fetch (w : Worker)
  | load (w : Worker) (id : MessageId)
  | requeueImmediate (batch : List Envelope) (t : Nanos)
  | requeueDelayed (batch : List Envelope) (t : Nanos)
  | publishScheduled (group : Option GroupId) (batch : List Envelope) (t : Nanos)
  | reap (c : ConsumerId) (batch : List Envelope) (t : Nanos)
  | delete (group : Option GroupId) (lock : Option LockId) (batch : List Envelope)
  | requeueMessage (e : Envelope) (t : Nanos)
  | setState (newState : OperationalState) (expected : Option OperationalState)
      (lock : Option LockId)
  | saveGroup (g : GroupId)
  | deleteGroup (g : GroupId) (keys : Option GroupId)
  /-- The acknowledged or the dead-letter list expires. -/
  | expire (k : ListKey)
  | tick (t : Nanos)
  | configure (cfg : Config)

/-- `isExpired` of `Consume`, which looks at the transferable form of the message. -/
def Envelope.isExpiredTransferable (now : Nanos) (e : Envelope) : Bool :=
  decide (0 < toMillis e.message.ttl) &&
    decide (ofMillis (toMillis e.message.createdAt) + ofMillis (toMillis e.message.ttl) ≤ now)

/-- The consume timeout has passed since `started`. -/
def Envelope.timesOut (started now : Nanos) (e : Envelope) : Prop :=
  0 < toMillis e.message.consumeTimeout ∧
    started + ofMillis (toMillis e.message.consumeTimeout) ≤ now
  deriving Decidable

/-- The envelope that `unacknowledgePoppedMessage` makes up for a popped identifier. -/
def Envelope.minimal (opts : ConsumeOptions) (now : Nanos) (id : MessageId)
    (group : Option GroupId) : Envelope :=
  { Envelope.new { Producible.new opts now 0 with consumeTimeout := 0 } id with
    consumerGroupId := group }

/-- `causeFromCheckoutError` and `causeFromAckError`. -/
def causeOfRefusal : Refusal → UnackCause
  | .queueStopped => .queueStopped
  | .queueLocked => .queueLocked
  | _ => .unexpectedError

/-- The entries of a batch that find their identifier in the list, each taking one
occurrence of it away. -/
def removals {β : Type} (key : β → MessageId) : List MessageId → List β → List β
  | _, [] => []
  | l, b :: batch =>
      if key b ∈ l then b :: removals key (l.erase (key b)) batch else removals key l batch

namespace System

variable (s : System)

/-- The tasks after a consumer has gone on from one task to others. -/
def proceed (c : ConsumerId) (old : Task) (new : Multiset Task) :
    Multiset (ConsumerId × Task) :=
  s.tasks.erase (c, old) + new.map fun t => (c, t)

/-- Load and decode a message. -/
def loadMessage (id : MessageId) : Option Envelope :=
  (s.db.hgetall id).bind (Codec.decodeEnvelope s.cfg.defaults s.nextId s.now)

/-- The entries of a settlement that take effect. -/
def effective {β : Type} (key : β → MessageId) (c : ConsumerId) (batch : List β) : List β :=
  if s.db.accepts then removals key (s.db.lists (.processing c)) batch else []

/-- The messages that a script has published, of those that it was given. -/
def publishedCopies (children : List PublishArgs) (db' : Keyspace) : List Event :=
  (children.filter fun a => (db'.hgetall a.id).isSome).filterMap fun a =>
    a.hash.message.map (Event.published a.id)

def produce (m : Producible) (group : Option GroupId) : Option System :=
  if m.createdAt ≤ s.now then
    let e := ({ Envelope.new m s.nextId with consumerGroupId := group } : Envelope).dispatch
      s.cfg.nextTick s.now
    let db' := (publishMessage (PublishArgs.ofEnvelope e) s.db).db
    some
      { s with
        db := db'
        nextId := s.nextId + 1
        log := publishedCopies [PublishArgs.ofEnvelope e] db' ++
          ((if (db'.hgetall s.nextId).isSome then [.produced s.nextId m] else []) ++ s.log) }
  else none

def pop (c : ConsumerId) (group : Option GroupId) : Option System :=
  if c ∈ s.crashed then none
  else
    match s.db.queueType? with
    | none => none
    | some type =>
        match RedisSmq.pop type group c s.db with
        | (none, _) => none
        | (some id, db') => some { s with db := db', tasks := (c, .popped id group) ::ₘ s.tasks }

def checkout (c : ConsumerId) (id : MessageId) (group : Option GroupId) : Option System :=
  if (c, Task.popped id group) ∈ s.tasks then
    match checkoutMessage (toMillis s.now) id s.db with
    | (.refused r, _) =>
        let e := Envelope.minimal s.cfg.defaults s.now id group
        some
          { s with
            tasks := s.proceed c (.popped id group) {.unacking e none (causeOfRefusal r)} }
    | (.notFound, _) | (.notPending, _) =>
        some { s with tasks := s.proceed c (.popped id group) 0 }
    | (.checkedOut h, db') =>
        let received :=
          match Codec.decodeEnvelope s.cfg.defaults s.nextId s.now h with
          | none => 0
          | some e => {.received e (s.deliveries id + 1)}
        some
          { s with
            db := db'
            nextId := s.nextId + 1
            tasks := s.proceed c (.popped id group) received
            log := .checkedOut c id (decide (id ∈ s.db.lists (.processing c))) :: s.log }
  else none

def cancel (c : ConsumerId) (task : Task) : Option System :=
  if (c, task) ∈ s.tasks then
    match task with
    | .popped _ _ | .unacking _ none _ => some { s with tasks := s.proceed c task 0 }
    | _ => none
  else none

def consume (c : ConsumerId) (e : Envelope) (k : Nat) : Option System :=
  if (c, Task.received e k) ∈ s.tasks then
    if e.isExpiredTransferable s.now then
      some { s with tasks := s.proceed c (.received e k) {.unacking e (some k) .ttlExpired} }
    else
      some
        { s with
          tasks := s.proceed c (.received e k) {.handling e k s.now false}
          log := .handed c e.id s.now :: s.log }
  else none

def finish (c : ConsumerId) (e : Envelope) (k : Nat) (started : Nanos) (ok : Bool) :
    Option System :=
  if (c, Task.handling e k started false) ∈ s.tasks then
    let settlement := if ok then .acking e.id k else .unacking e (some k) .unacknowledged
    some
      { s with
        tasks := s.proceed c (.handling e k started false)
          {settlement, .returning e k started} }
  else none

def timeout (c : ConsumerId) (e : Envelope) (k : Nat) (started : Nanos) : Option System :=
  if (c, Task.handling e k started false) ∈ s.tasks ∧ e.timesOut started s.now then
    some
      { s with
        tasks := s.proceed c (.handling e k started false)
          {.unacking e (some k) .timeout, .handling e k started true} }
  else none

def finishTimedOut (c : ConsumerId) (e : Envelope) (k : Nat) (started : Nanos) : Option System :=
  if (c, Task.handling e k started true) ∈ s.tasks then
    some { s with tasks := s.proceed c (.handling e k started true) 0 }
  else none

def lateTimeout (c : ConsumerId) (e : Envelope) (k : Nat) (started : Nanos) : Option System :=
  if (c, Task.returning e k started) ∈ s.tasks ∧ e.timesOut started s.now then
    some { s with tasks := s.proceed c (.returning e k started) {.unacking e (some k) .timeout} }
  else none

def returned (c : ConsumerId) (e : Envelope) (k : Nat) (started : Nanos) : Option System :=
  if (c, Task.returning e k started) ∈ s.tasks then
    some { s with tasks := s.proceed c (.returning e k started) 0 }
  else none

/-- The tasks of a batch of acknowledgements. -/
def ackTasks (c : ConsumerId) (batch : List (MessageId × Nat)) : Multiset (ConsumerId × Task) :=
  (batch.map fun b => (c, Task.acking b.1 b.2) : List (ConsumerId × Task))

/-- The tasks that follow a batch of acknowledgements: none if it was accepted. -/
def ackAftermath (c : ConsumerId) (batch : List (MessageId × Nat)) :
    Except RedisError (Except Refusal (List (MessageId × Bool))) → Multiset (ConsumerId × Task)
  | .ok (.ok _) => 0
  | .ok (.error r) =>
      (batch.map fun b => (c, Task.ackFailed b.1 b.2 (causeOfRefusal r)) :
        List (ConsumerId × Task))
  | .error _ =>
      (batch.map fun b => (c, Task.ackFailed b.1 b.2 .unexpectedError) : List (ConsumerId × Task))

def acknowledge (c : ConsumerId) (batch : List (MessageId × Nat)) (t : Nanos) : Option System :=
  if ackTasks c batch ≤ s.tasks ∧ t ≤ s.now then
    let run := acknowledgeMessage s.cfg c (toMillis t) (batch.map Prod.fst) s.db
    some
      { s with
        db := run.db
        tasks := s.tasks - ackTasks c batch + ackAftermath c batch run.reply
        log := (s.effective Prod.fst c batch).map (fun b =>
          .settled c b.1 (some b.2) (s.delivery b.1) none) ++ s.log }
  else none

def reload (c : ConsumerId) (id : MessageId) (k : Nat) (cause : UnackCause) : Option System :=
  if (c, Task.ackFailed id k cause) ∈ s.tasks then
    let next :=
      match s.loadMessage id with
      | none => 0
      | some e => {.unacking e (some k) cause}
    some
      { s with
        nextId := s.nextId + 1
        tasks := s.proceed c (.ackFailed id k cause) next }
  else none

/-- A settlement by `unacknowledge-message`: the messages, the delivery that each is
asked for and the cause. -/
def unackBatch (c : ConsumerId) (batch : List (Envelope × Option Nat × UnackCause)) (t : Nanos) :
    Keyspace × List Event :=
  ((unacknowledgeMessage s.cfg c (batch.map fun b => UnackArg.ofEnvelope s.cfg t b.1 b.2.2) s.db).2,
    (s.effective (fun b => b.1.id) c batch).map fun b =>
      .settled c b.1.id b.2.1 (s.delivery b.1.id)
        (some (s.now, (resolveUnackAction t b.1 b.2.2).retries)))

/-- The tasks of a batch of unacknowledgements. -/
def unackTasks (c : ConsumerId) (batch : List (Envelope × Option Nat × UnackCause)) :
    Multiset (ConsumerId × Task) :=
  (batch.map fun b => (c, Task.unacking b.1 b.2.1 b.2.2) : List (ConsumerId × Task))

def unacknowledge (c : ConsumerId) (batch : List (Envelope × Option Nat × UnackCause))
    (t : Nanos) : Option System :=
  if unackTasks c batch ≤ s.tasks ∧ t ≤ s.now then
    let (db', events) := s.unackBatch c batch t
    some { s with db := db', tasks := s.tasks - unackTasks c batch, log := events ++ s.log }
  else none

def crash (c : ConsumerId) : Option System :=
  some { s with tasks := s.tasks.filter fun t => t.1 ≠ c, crashed := c :: s.crashed }

def fetch (w : Worker) : Option System :=
  some { s with fetched := (s.due w).map (fun id => (w, id)) ++ s.fetched }

def load (w : Worker) (id : MessageId) : Option System :=
  if (w, id) ∈ s.fetched ∨ w = .deleter ∨ w = .copier then
    some
      { s with
        nextId := s.nextId + 1
        loaded := (s.loadMessage id).toList.map (fun e => (w, e)) ++ s.loaded }
  else none

/-- The batch consists of copies that the worker loaded. -/
def hasLoaded (w : Worker) (batch : List Envelope) : Prop := ∀ e ∈ batch, (w, e) ∈ s.loaded
  deriving Decidable

def requeueImmediate (batch : List Envelope) (t : Nanos) : Option System :=
  if s.hasLoaded .requeuer batch ∧ t ≤ s.now then
    some
      { s with
        db := (RedisSmq.requeueImmediate (toMillis t) (batch.map (RequeueArg.ofEnvelope t))
          s.db).db }
  else none

def requeueDelayed (batch : List Envelope) (t : Nanos) : Option System :=
  if s.hasLoaded .delayedRequeuer batch ∧ t ≤ s.now then
    some
      { s with
        db := (RedisSmq.requeueDelayed (toMillis t) (batch.map (RequeueArg.ofEnvelope t)) s.db).db }
  else none

/-- The arguments of `publish-scheduled`, with a fresh identifier for each message. -/
def scheduledArgs (batch : List Envelope) (t : Nanos) : List ScheduledArg :=
  ScheduledArg.ofBatch s.cfg t s.nextId batch

def publishScheduled (group : Option GroupId) (batch : List Envelope) (t : Nanos) :
    Option System :=
  if s.hasLoaded .scheduler batch ∧ (∀ e ∈ batch, e.consumerGroupId = group) ∧
      (batch.map Envelope.id).Nodup ∧ t ≤ s.now then
    let args := s.scheduledArgs batch t
    let db' := (RedisSmq.publishScheduled args s.db).db
    some
      { s with
        db := db'
        nextId := s.nextId + batch.length
        log := publishedCopies (args.filterMap fun a => a.next.map Prod.snd) db' ++ s.log }
  else none

def reap (c : ConsumerId) (batch : List Envelope) (t : Nanos) : Option System :=
  if s.hasLoaded (.reaper c) batch ∧ t ≤ s.now then
    let (db', events) := s.unackBatch c (batch.map fun e => (e, none, .offlineConsumer)) t
    some { s with db := db', log := events ++ s.log }
  else none

/-- `delete-message` on the messages of the batch, with the keys of the group. -/
def deleteUnder (group : Option GroupId) (lock : Option LockId) (batch : List Envelope) : System :=
  let ids := batch.map Envelope.id
  let db' := (deleteMessage group lock ids s.db).db
  { s with
    db := db'
    log := (ids.filter fun id => (s.db.hgetall id).isSome && (db'.hgetall id).isNone).map
      Event.deleted ++ s.log }

def delete (group : Option GroupId) (lock : Option LockId) (batch : List Envelope) :
    Option System :=
  if s.hasLoaded .deleter batch ∧ ∀ e ∈ batch, e.consumerGroupId = group then
    some (s.deleteUnder group lock batch)
  else none

def requeueMessage (e : Envelope) (t : Nanos) : Option System :=
  if s.hasLoaded .copier [e] ∧ e.status.isRequeuable = true ∧ t ≤ s.now then
    let arg := RequeueCopyArg.ofEnvelope s.cfg t s.nextId e
    let db' := (RedisSmq.requeueMessage [arg] s.db).db
    some
      { s with
        db := db'
        nextId := s.nextId + 1
        log := publishedCopies [arg.child] db' ++ s.log }
  else none

def expire (k : ListKey) : Option System :=
  if k = .acknowledged ∨ k = .deadLetter then some { s with db := s.db.setList k [] } else none

/-- The state after an action. -/
def step : Action → Option System
  | .produce m group => s.produce m group
  | .pop c group => s.pop c group
  | .checkout c id group => s.checkout c id group
  | .cancel c task => s.cancel c task
  | .consume c e k => s.consume c e k
  | .finish c e k started ok => s.finish c e k started ok
  | .timeout c e k started => s.timeout c e k started
  | .finishTimedOut c e k started => s.finishTimedOut c e k started
  | .lateTimeout c e k started => s.lateTimeout c e k started
  | .returned c e k started => s.returned c e k started
  | .acknowledge c batch t => s.acknowledge c batch t
  | .reload c id k cause => s.reload c id k cause
  | .unacknowledge c batch t => s.unacknowledge c batch t
  | .crash c => s.crash c
  | .fetch w => s.fetch w
  | .load w id => s.load w id
  | .requeueImmediate batch t => s.requeueImmediate batch t
  | .requeueDelayed batch t => s.requeueDelayed batch t
  | .publishScheduled group batch t => s.publishScheduled group batch t
  | .reap c batch t => s.reap c batch t
  | .delete group lock batch => s.delete group lock batch
  | .requeueMessage e t => s.requeueMessage e t
  | .setState newState expected lock =>
      some { s with db := (setQueueState newState expected lock s.db).2 }
  | .saveGroup g => some { s with db := { s.db with groups := g :: s.db.groups } }
  | .deleteGroup g keys => some { s with db := (deleteConsumerGroup g keys s.db).2 }
  | .expire k => s.expire k
  | .tick t => some { s with now := s.now + t }
  | .configure cfg => some { s with cfg := cfg }

/-- The run leads from one state to the other. -/
def Runs (as : List Action) (s' : System) : Prop := Run.exec step s as = some s'

end System

end RedisSmq
