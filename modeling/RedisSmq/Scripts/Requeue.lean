import RedisSmq.Scripts.Basic

/-!
# Requeuing

`requeue-immediate` empties the requeued list: a message without retry delay goes
back to its pending container, one with a retry delay into the delayed set.
`requeue-delayed` moves due messages of the delayed set to their pending
containers. A message whose consumer group is gone is dead-lettered instead. Both
scripts update the counters once, at the end of the batch.
-/

namespace RedisSmq

/-- The arguments of `requeue-immediate` for one message; `requeue-delayed` uses
all but the delay and its timestamp. -/
structure RequeueArg where
  id : MessageId
  priority : Option Nat
  retryDelay : Millis
  delayedTimestamp : Millis
  group : Option GroupId
  deriving DecidableEq, Repr

/-- One message of `requeueMessages`, with arguments built at the instant `now`. -/
def RequeueArg.ofEnvelope (now : Nanos) (e : Envelope) : RequeueArg where
  id := e.id
  priority := e.message.priority
  retryDelay := toMillis e.message.retryDelay
  delayedTimestamp :=
    if 0 < e.message.retryDelay then toMillis now + toMillis e.message.retryDelay else 0
  group := e.consumerGroupId

/-- How many messages a batch moved to each destination. -/
structure RequeueTally where
  pending : Nat := 0
  delayed : Nat := 0
  deadLettered : Nat := 0
  deriving DecidableEq, Repr

def RequeueTally.total (t : RequeueTally) : Nat := t.pending + t.delayed + t.deadLettered

def retriedWrite (now : Millis) (h : MessageHash) : MessageHash :=
  { h with status := some .pending, lastRetriedAttemptAt := some now }

def delayingWrite (h : MessageHash) : MessageHash := { h with status := some .unackDelaying }

def deadLetteredWrite (now : Millis) (h : MessageHash) : MessageHash :=
  { h with status := some .deadLettered, deadLetteredAt := some now }

/-- The retry of a message that has just been taken out of the requeued list or of
the delayed set: into its pending container, or dead-lettered if its group is gone.
It fails on a priority queue when the message has no priority. -/
def retryTaken (type : QueueType) (now : Millis) (a : RequeueArg) (db : Keyspace) :
    Option (Bool × Keyspace) :=
  if db.groupExists a.group then
    (db.enqueueRetry type a.group a.priority a.id).map fun db =>
      (true, db.hset a.id (retriedWrite now))
  else some (false, (db.rpush .deadLetter a.id).hset a.id (deadLetteredWrite now))

/-- The delay of a message that has just been taken out of the requeued list. -/
def delayTaken (a : RequeueArg) (db : Keyspace) : Keyspace :=
  (db.hset a.id delayingWrite).zadd .delayed
    a.delayedTimestamp a.id

/-- The loop of `requeue-immediate`. -/
def requeueImmediateLoop (type : QueueType) (now : Millis) :
    List RequeueArg → RequeueTally → Keyspace → Outcome RequeueTally
  | [], tally, db => .done db tally
  | a :: args, tally, db =>
      if a.id ∈ db.lists .requeued then
        let db := db.lrem .requeued a.id
        if a.retryDelay = 0 then
          match retryTaken type now a db with
          | none => .abort db .notAFloat
          | some (true, db) =>
              requeueImmediateLoop type now args { tally with pending := tally.pending + 1 } db
          | some (false, db) =>
              requeueImmediateLoop type now args
                { tally with deadLettered := tally.deadLettered + 1 } db
        else
          requeueImmediateLoop type now args { tally with delayed := tally.delayed + 1 }
            (delayTaken a db)
      else requeueImmediateLoop type now args tally db

def requeueImmediate (now : Millis) (args : List RequeueArg) (db : Keyspace) :
    Outcome (Except Refusal Nat) :=
  match db.queueType? with
  | none => .done db (.ok 0)
  | some type =>
      match stateRefusal db.operationalState with
      | some r => .done db (.error r)
      | none =>
          match requeueImmediateLoop type now args {} db with
          | ⟨db, .error e⟩ => .abort db e
          | ⟨db, .ok tally⟩ =>
              .done
                ((((db.hincrbyPos .requeued (-1) tally.total).hincrbyPos .delayed 1
                  tally.delayed).hincrbyPos .pending 1 tally.pending).hincrbyPos .deadLettered 1
                    tally.deadLettered)
                (.ok tally.total)

/-- The loop of `requeue-delayed`. -/
def requeueDelayedLoop (type : QueueType) (now : Millis) :
    List RequeueArg → RequeueTally → Keyspace → Outcome RequeueTally
  | [], tally, db => .done db tally
  | a :: args, tally, db =>
      if a.id ∈ db.zsets .delayed then
        let db := db.zrem .delayed a.id
        match retryTaken type now a db with
        | none => .abort db .notAFloat
        | some (true, db) =>
            requeueDelayedLoop type now args { tally with pending := tally.pending + 1 } db
        | some (false, db) =>
            requeueDelayedLoop type now args
              { tally with deadLettered := tally.deadLettered + 1 } db
      else requeueDelayedLoop type now args tally db

def requeueDelayed (now : Millis) (args : List RequeueArg) (db : Keyspace) :
    Outcome (Except Refusal Nat) :=
  match db.queueType? with
  | none => .done db (.ok 0)
  | some type =>
      match stateRefusal db.operationalState with
      | some r => .done db (.error r)
      | none =>
          match requeueDelayedLoop type now args {} db with
          | ⟨db, .error e⟩ => .abort db e
          | ⟨db, .ok tally⟩ =>
              .done
                (((db.hincrbyPos .pending 1 tally.pending).hincrbyPos .deadLettered 1
                  tally.deadLettered).hincrbyPos .delayed (-1) tally.total)
                (.ok tally.total)

end RedisSmq
