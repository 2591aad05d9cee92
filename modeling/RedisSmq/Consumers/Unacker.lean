import RedisSmq.Scripts.Settle

/-!
# The batch unacker

`BatchUnacker.unacknowledge` hands its buffered entries to `UnacknowledgeBatch`, which
runs `unacknowledge-message` on them, and then publishes events for them. It looks only
at the error of the call. The reply of the script, be it the number of settled messages
or a refusal, is dropped, and the events come from a second evaluation of
`resolveUnackAction`, made for each entry at the instant when its turn has come. The event
multiplexer drops them unless the user bus is running, and its errors are only logged. The
other callers of `UnacknowledgeBatch` publish nothing.
-/

namespace RedisSmq

structure UnackEntry where
  message : Envelope
  cause : UnackCause

/-- The message of an entry. -/
def UnackEntry.id (entry : UnackEntry) : MessageId := entry.message.id

/-- The events that are published for unacknowledged messages. -/
inductive ConsumerEvent where
  | messageUnacknowledged (id : MessageId) (c : ConsumerId) (cause : UnackCause)
  | messageDeadLettered (id : MessageId) (c : ConsumerId) (cause : DeadLetterCause)
  | messageDelayed (id : MessageId) (c : ConsumerId)
  | messageRequeued (id : MessageId) (c : ConsumerId)
  deriving DecidableEq, Repr

/-- The public event bus at the time of a publication: not initialised or shut down, running,
or running while `PUBLISH` fails. -/
inductive UserBus where
  | down
  | running
  | failing
  deriving DecidableEq, Repr

/-- `eventmultiplexer.Publish` of a consumer event, for which there is no routing policy. -/
def UserBus.publish (bus : UserBus) (event : ConsumerEvent) : List ConsumerEvent :=
  match bus with
  | .running => [event]
  | .down | .failing => []

/-- The circumstances under which the events of an entry are published: the instant, and the
user bus at the first and at the second publication. -/
structure Announcement where
  time : Nanos
  first : UserBus
  second : UserBus

/-- How the call of a script ends. If it fails, the script may have run or not. -/
inductive CallEnd where
  | answered
  | replyLost
  | requestLost
  deriving DecidableEq, Repr

/-- `buildBatchLuaArgs` at the instant `now`. -/
def buildBatchLuaArgs (cfg : Config) (now : Nanos) (entries : List UnackEntry) : List UnackArg :=
  entries.map fun entry => UnackArg.ofEnvelope cfg now entry.message entry.cause

/-- `UnacknowledgeBatch`: whether it returns without an error, and the keyspace it leaves.
An empty batch does not reach Redis. -/
def MessageUnacknowledger.unacknowledgeBatch (cfg : Config) (c : ConsumerId)
    (callEnd : CallEnd) (now : Nanos) (entries : List UnackEntry) (db : Keyspace) :
    Bool × Keyspace :=
  match entries, callEnd with
  | [], _ => (true, db)
  | _ :: _, .answered =>
      (true, (unacknowledgeMessage cfg c (buildBatchLuaArgs cfg now entries) db).2)
  | _ :: _, .replyLost =>
      (false, (unacknowledgeMessage cfg c (buildBatchLuaArgs cfg now entries) db).2)
  | _ :: _, .requestLost => (false, db)

/-- The event of what is to become of the message. -/
def UnackEntry.outcome (c : ConsumerId) (now : Nanos) (entry : UnackEntry) : ConsumerEvent :=
  match resolveUnackAction now entry.message entry.cause with
  | .deadLetter cause => .messageDeadLettered entry.id c cause
  | .delay => .messageDelayed entry.id c
  | .requeue => .messageRequeued entry.id c

/-- The events of one entry. -/
def UnackEntry.events (c : ConsumerId) (a : Announcement) (entry : UnackEntry) :
    List ConsumerEvent :=
  a.first.publish (.messageUnacknowledged entry.id c entry.cause) ++
    a.second.publish (entry.outcome c a.time)

/-- The callers of `UnacknowledgeBatch`. -/
inductive UnackCaller where
  /-- `BatchUnacker.unacknowledge` -/
  | batchUnacker
  /-- `BatchAcker.unacknowledgeFailed` -/
  | failedAck
  /-- `DequeueMessage.unacknowledgePoppedMessage` -/
  | popped
  /-- `UnacknowledgeProcessingQueue` -/
  | reaper
  deriving DecidableEq, Repr

/-- The published events and the keyspace that a caller leaves. The arguments of the script
are built at `now`, and `later i` tells of the events of the entry with the number `i`. -/
def UnackCaller.unacknowledge (caller : UnackCaller) (cfg : Config) (c : ConsumerId)
    (callEnd : CallEnd) (now : Nanos) (later : Nat → Announcement) (entries : List UnackEntry)
    (db : Keyspace) : List ConsumerEvent × Keyspace :=
  match caller, MessageUnacknowledger.unacknowledgeBatch cfg c callEnd now entries db with
  | .batchUnacker, (true, db') => (entries.zipIdx.flatMap fun p => p.1.events c (later p.2), db')
  | .batchUnacker, (false, db') => ([], db')
  | _, (_, db') => ([], db')

end RedisSmq
