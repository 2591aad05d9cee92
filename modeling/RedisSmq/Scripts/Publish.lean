import RedisSmq.Scripts.Basic

/-!
# Publishing

`publish_message` is shared by three scripts: the producer's own
`publish-message`, the scheduled publisher's `publish-scheduled`, which also
takes due messages out of the schedule, and `requeue-message`, which publishes a
copy of a settled message.
-/

namespace RedisSmq

/-- The arguments of `publish_message`. -/
structure PublishArgs where
  id : MessageId
  status : Status
  priority : Option Nat
  scheduledTimestamp : Option Millis
  group : Option GroupId
  lock : Option LockId
  hash : MessageHash

/-- `BuildPublishArgs`. -/
def PublishArgs.ofEnvelope (e : Envelope) : PublishArgs where
  id := e.id
  status := e.status
  priority := e.message.priority
  scheduledTimestamp := e.state.scheduledAt
  group := e.consumerGroupId
  lock := none
  hash := Codec.publishedHash e

/-- The arguments with which a script publishes a copy `e` of another message:
only the identifier, the parameters, the publication time and one parent are set. -/
def PublishArgs.copy (e : Envelope) (publishedAt : Millis)
    (scheduledParent requeuedParent : Option MessageId) : PublishArgs where
  id := e.id
  status := .pending
  priority := e.message.priority
  scheduledTimestamp := none
  group := e.consumerGroupId
  lock := none
  hash :=
    { id := some e.id
      status := some .pending
      message := some e.toParams
      publishedAt := some publishedAt
      processingStartedAt := .empty
      requeueCount := some 0
      scheduledCronFired := some false
      attempts := some 0
      scheduledRepeatCount := some 0
      expired := some false
      effectiveScheduledDelay := some 0
      scheduledTimes := some 0
      scheduledMessageParentId := scheduledParent
      requeuedMessageParentId := requeuedParent }

/-- What `publish_message` writes: all fields of the hash, of which
`unacknowledgedCount` is not one. -/
def PublishArgs.write (a : PublishArgs) (old : MessageHash) : MessageHash :=
  { a.hash with unacknowledgedCount := old.unacknowledgedCount }

/-- The end of `publish_message`, once the identifier is in its container. -/
def storePublished (a : PublishArgs) (container : Counter) (db : Keyspace) : Keyspace :=
  (((db.hincrby container 1).rpush .published a.id).hset a.id a.write).hincrby .messages 1

def publishMessage (a : PublishArgs) (db : Keyspace) : Outcome (Except Refusal Unit) :=
  match db.queueType? with
  | none => .done db (.error .queueNotFound)
  | some type =>
      if db.operationalState = .stopped then .done db (.error .queueStopped)
      else if db.operationalState = .locked ∧ db.lockMatches a.lock = false then
        .done db (.error .queueLocked)
      else if db.groupExists a.group = false then .done db (.error .consumerGroupNotFound)
      else if type = .priority ∧ a.priority = none then
        .done db (.error .messagePriorityRequired)
      else if type ≠ .priority ∧ a.priority ≠ none then
        .done db (.error .priorityQueuingNotEnabled)
      else if a.status = .pending then
        match db.enqueueNew type a.group a.priority a.id with
        | none => .abort db .notAFloat
        | some db => .done (storePublished a .pending db) (.ok ())
      else
        match a.scheduledTimestamp with
        | none => .abort db .notAFloat
        | some ts => .done (storePublished a .scheduled (db.zadd .scheduled ts a.id)) (.ok ())

/-- The arguments of `publish-scheduled` for one due message. The message goes
back into the schedule and `child` is published when `next` is given, and is moved
to its pending container otherwise. -/
structure ScheduledArg where
  id : MessageId
  priority : Option Nat
  group : Option GroupId
  next : Option (Millis × PublishArgs)
  lastScheduledAt : Option Millis
  scheduledTimes : Nat
  publishedAt : Option Millis
  cronFired : Bool
  repeatCount : Nat
  effectiveScheduledDelay : Millis
  deadLetteredAt : Millis

/-- One message of `enqueueScheduled`, at the instant `now` and with the UUID of the
copy that is made of a periodic message. -/
def ScheduledArg.ofEnvelope (cfg : Config) (now : Nanos) (uuid : MessageId) (e : Envelope) :
    ScheduledArg :=
  let nextAt := (e.nextScheduledTimestamp cfg.nextTick now).1
  let fired := (e.nextScheduledTimestamp cfg.nextTick now).2
  let repeats := decide (0 < nextAt) && fired.isPeriodic
  { id := e.id
    priority := e.message.priority
    group := e.consumerGroupId
    next :=
      if repeats then
        some (nextAt, PublishArgs.copy (fired.cloneUnscheduled cfg.defaults now uuid)
          (toMillis now) (some e.id) none)
      else none
    lastScheduledAt := if repeats then some (toMillis now) else fired.state.lastScheduledAt
    scheduledTimes :=
      if repeats then fired.state.scheduledTimes + 1 else fired.state.scheduledTimes
    publishedAt := fired.state.publishedAt
    cronFired := fired.state.scheduledCronFired
    repeatCount := fired.state.scheduledRepeatCount
    effectiveScheduledDelay := fired.state.effectiveScheduledDelay
    deadLetteredAt := toMillis now }

/-- The batch of `enqueueScheduled`, with the identifiers from `uuid` on for the copies. -/
def ScheduledArg.ofBatch (cfg : Config) (now : Nanos) :
    MessageId → List Envelope → List ScheduledArg
  | _, [] => []
  | uuid, e :: batch =>
      ScheduledArg.ofEnvelope cfg now uuid e :: ScheduledArg.ofBatch cfg now (uuid + 1) batch

/-- The scheduling fields that both branches of `publish-scheduled` write. -/
def ScheduledArg.writeSchedule (a : ScheduledArg) (h : MessageHash) : MessageHash :=
  { h with
    lastScheduledAt := a.lastScheduledAt
    scheduledTimes := some a.scheduledTimes
    scheduledCronFired := some a.cronFired
    scheduledRepeatCount := some a.repeatCount
    effectiveScheduledDelay := some a.effectiveScheduledDelay }

/-- What `publish-scheduled` writes to a message that becomes pending. -/
def ScheduledArg.writePublished (a : ScheduledArg) (h : MessageHash) : MessageHash :=
  { a.writeSchedule h with publishedAt := a.publishedAt, status := some .pending }

/-- What `publish-scheduled` writes to a message whose group is gone. -/
def ScheduledArg.writeDeadLettered (a : ScheduledArg) (h : MessageHash) : MessageHash :=
  { h with status := some .deadLettered, deadLetteredAt := some a.deadLetteredAt }

/-- A due message leaves the schedule. -/
def takeScheduled (a : ScheduledArg) (db : Keyspace) : Keyspace :=
  (db.zrem .scheduled a.id).hincrby .scheduled (-1)

/-- A due message whose consumer group is gone, taken out of the schedule: it goes
to the dead-letter list, whatever the audit configuration says. Both branches of
`publish-scheduled` do this, with the same commands in a different order. -/
def deadLetterTaken (a : ScheduledArg) (db : Keyspace) : Keyspace :=
  ((db.rpush .deadLetter a.id).hincrby .deadLettered 1).hset a.id a.writeDeadLettered

/-- A due message that will not be scheduled again, taken out of the schedule. It
fails on a priority queue when the message has no priority. -/
def publishTaken (type : QueueType) (a : ScheduledArg) (db : Keyspace) : Option Keyspace :=
  if db.groupExists a.group then
    (db.enqueueNew type a.group a.priority a.id).map fun db =>
      (db.hincrby .pending 1).hset a.id a.writePublished
  else some (deadLetterTaken a db)

/-- A due periodic message is put back into the schedule, whether or not it is still
there. -/
def reschedule (a : ScheduledArg) (nextAt : Millis) (db : Keyspace) : Keyspace :=
  (db.zadd .scheduled nextAt a.id).hset a.id a.writeSchedule

/-- The loop of `publish-scheduled`; `done` counts the processed messages. -/
def publishScheduledLoop (type : QueueType) :
    List ScheduledArg → Nat → Keyspace → Outcome (Except Refusal Nat)
  | [], done, db => .done db (.ok done)
  | a :: args, done, db =>
      match a.next with
      | none =>
          if a.id ∈ db.zsets .scheduled then
            match publishTaken type a (takeScheduled a db) with
            | none => .abort (takeScheduled a db) .notAFloat
            | some db => publishScheduledLoop type args (done + 1) db
          else publishScheduledLoop type args done db
      | some (nextAt, child) =>
          if db.groupExists a.group then
            match publishMessage child (reschedule a nextAt db) with
            | ⟨db, .error e⟩ => .abort db e
            | ⟨db, .ok (.error r)⟩ => .done db (.error r)
            | ⟨db, .ok (.ok ())⟩ => publishScheduledLoop type args (done + 1) db
          else if a.id ∈ db.zsets .scheduled then
            publishScheduledLoop type args (done + 1) (deadLetterTaken a (takeScheduled a db))
          else publishScheduledLoop type args (done + 1) db

/-- `publish-scheduled`: a queue that is stopped or locked is left alone. -/
def publishScheduled (args : List ScheduledArg) (db : Keyspace) : Outcome (Except Refusal Nat) :=
  match db.queueType? with
  | none => .done db (.ok 0)
  | some type =>
      if (stateRefusal db.operationalState).isSome then .done db (.ok 0)
      else publishScheduledLoop type args 0 db

/-- The arguments of `requeue-message` for one message. -/
structure RequeueCopyArg where
  original : MessageId
  child : PublishArgs
  requeuedAt : Millis
  lastRequeuedAt : Millis

/-- The arguments of `RequeueMessage`, at the instant `now` and with the UUID of the
copy. -/
def RequeueCopyArg.ofEnvelope (cfg : Config) (now : Nanos) (uuid : MessageId) (e : Envelope) :
    RequeueCopyArg where
  original := e.id
  child :=
    PublishArgs.copy (e.cloneUnscheduled cfg.defaults now uuid) (toMillis now) none (some e.id)
  requeuedAt := e.state.requeuedAt.getD (toMillis now)
  lastRequeuedAt := toMillis now

/-- What `requeue-message` writes to the message it copied. -/
def RequeueCopyArg.writeRequeued (a : RequeueCopyArg) (h : MessageHash) : MessageHash :=
  { h with
    requeuedAt := some a.requeuedAt
    lastRequeuedAt := some a.lastRequeuedAt
    requeueCount := some (h.requeueCount.getD 0 + 1) }

/-- The loop of `requeue-message`. -/
def requeueMessageLoop : List RequeueCopyArg → Nat → Keyspace → Outcome (Except Refusal Nat)
  | [], done, db => .done db (.ok done)
  | a :: args, done, db =>
      if ((db.hgetall a.original).bind MessageHash.id).isSome && db.groupExists a.child.group then
        match publishMessage a.child db with
        | ⟨db, .error e⟩ => .abort db e
        | ⟨db, .ok (.error r)⟩ => .done db (.error r)
        | ⟨db, .ok (.ok ())⟩ =>
            requeueMessageLoop args (done + 1) (db.hset a.original a.writeRequeued)
      else requeueMessageLoop args done db

def requeueMessage (args : List RequeueCopyArg) (db : Keyspace) : Outcome (Except Refusal Nat) :=
  if db.queue.isNone then .done db (.ok 0) else requeueMessageLoop args 0 db

end RedisSmq
